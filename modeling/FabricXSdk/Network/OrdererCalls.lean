import FabricXSdk.Network.Orderer
import Mathlib.Data.List.Induction

/-!
# What the calls on an orderer know

Between two of its actions a call relies on what the mutex protects, and on what can only
grow. While one call holds the mutex, all that others can do is cancel contexts. Each action
keeps the invariant of the client, and gives the call what it relies on at its next place.
-/

namespace FabricXSdk.Network.Orderer

open Golang

section Client

variable {o o' : Client} {i j c : ℕ} {call : Call}

/-- What holds of the client between two actions. -/
structure ClientInv (o : Client) : Prop where
  /-- Only the context in use can be alive. -/
  current : ∀ c < o.contexts, ¬ o.Cancelled c → o.streamCtx = some c
  known : ∀ c, o.streamCtx = some c → c < o.contexts
  stream : ∀ c, o.stream = some c → o.streamCtx = some c
  isOpen : o.closed = false → .closed ∉ o.log
  quiet : QuietAfterClose o.log

/-- What a call has sent before it opens context `n`. -/
def Tried (o : Client) (i n : ℕ) : Bool → Prop
  | false => sendsOf i o.log = []
  | true => ∃ first < n, sendsOf i o.log = [first] ∧ .cancel first ∈ o.log

/-- What a call knows at its place. -/
def Call.Ok (o : Client) (i : ℕ) : Call → Prop
  | .start => sendsOf i o.log = []
  | .lock => sendsOf i o.log = []
  | .ensureStream retry => Tried o i o.contexts retry ∧
      (retry = true → o.closed = false ∧ ∀ c, o.streamCtx = some c → o.Cancelled c)
  | .renew retry => Tried o i o.contexts retry ∧ o.closed = false
  | .create retry => Tried o i o.contexts retry ∧ o.closed = false ∧ o.stream = none ∧
      ∀ c < o.contexts, o.Cancelled c
  | .opening retry => o.closed = false ∧ ∃ c, o.streamCtx = some c ∧ Tried o i c retry
  | .openFailed _ => AtMostTwice o.log i
  | .send false => o.closed = false ∧ sendsOf i o.log = [] ∧ o.stream ≠ none
  | .send true => o.closed = false ∧ ∃ first second, sendsOf i o.log = [first] ∧
      o.stream = some second ∧ Renewed o.log first second
  | .sendFailed => o.closed = false ∧ ∃ first, sendsOf i o.log = [first] ∧ o.stream = some first
  | .unlock _ => AtMostTwice o.log i
  | .returned _ => AtMostTwice o.log i
  | .closeLock => sendsOf i o.log = []
  | .closeMark => sendsOf i o.log = []
  | .closeUnlock _ cancel => sendsOf i o.log = [] ∧ o.closed = true ∧ cancel = o.streamCtx
  | .closeSend _ cancel => sendsOf i o.log = [] ∧ o.closed = true ∧ cancel = o.streamCtx
  | .closeWait cancel => sendsOf i o.log = [] ∧ o.closed = true ∧ cancel = o.streamCtx
  | .closeCancel cancel => sendsOf i o.log = [] ∧ o.closed = true ∧ cancel = o.streamCtx
  | .closeConn => sendsOf i o.log = [] ∧ o.closed = true ∧ ∀ c < o.contexts, o.Cancelled c
  | .closeReturned _ => sendsOf i o.log = [] ∧ o.closed = true ∧ ∀ c < o.contexts, o.Cancelled c

/-- The call holds the mutex. -/
def Call.Holds : Call → Prop
  | .start | .lock | .returned _ | .closeLock | .closeSend _ _ | .closeWait _ | .closeCancel _
  | .closeConn | .closeReturned _ => False
  | _ => True

/-- What a call may see of the action of call `i` while it does not hold the mutex. -/
structure Grows (i : ℕ) (o o' : Client) : Prop where
  log : ∃ added, o'.log = o.log ++ added ∧ ∀ j ≠ i, sendsOf j added = []
  ctxDone : o.ctxDone = true → o'.ctxDone = true
  closed : o.closed = true →
    o'.closed = true ∧ o'.streamCtx = o.streamCtx ∧ o'.contexts = o.contexts

/-- What may happen while a call holds the mutex: contexts are cancelled. -/
structure Cancels (o o' : Client) : Prop where
  log : ∃ added, o'.log = o.log ++ added ∧ ∀ e ∈ added, ∃ c, e = .cancel c
  ctxDone : o.ctxDone = true → o'.ctxDone = true
  mu : o'.mu = o.mu
  closed : o'.closed = o.closed
  streamCtx : o'.streamCtx = o.streamCtx
  stream : o'.stream = o.stream
  contexts : o'.contexts = o.contexts

theorem Cancels.refl (o : Client) : Cancels o o :=
  ⟨⟨[], by simp, by simp⟩, id, rfl, rfl, rfl, rfl, rfl⟩

theorem cancels_cancel (o : Client) (ctx : Option ℕ) : Cancels o (o.cancel ctx) := by
  cases ctx with
  | none => exact Cancels.refl o
  | some c => exact ⟨⟨[.cancel c], rfl, by simp⟩, id, rfl, rfl, rfl, rfl, rfl⟩

theorem cancelled_cancel (o : Client) (c : ℕ) : (o.cancel (some c)).Cancelled c :=
  Or.inr (List.mem_append_right _ (List.mem_singleton_self _))

theorem sendsOf_cancels {added : List Entry} (h : ∀ e ∈ added, ∃ c, e = .cancel c) :
    sendsOf i added = [] := by
  rw [sendsOf, List.filterMap_eq_nil_iff]
  intro e he
  obtain ⟨c, rfl⟩ := h e he
  rfl

theorem Cancels.sendsOf (h : Cancels o o') : sendsOf i o'.log = sendsOf i o.log := by
  obtain ⟨added, hlog, hadded⟩ := h.log
  rw [hlog, sendsOf_append, sendsOf_cancels hadded, List.append_nil]

theorem Cancels.cancelled (h : Cancels o o') (hc : o.Cancelled c) : o'.Cancelled c := by
  obtain ⟨added, hlog, _⟩ := h.log
  rcases hc with hc | hc
  · exact Or.inl (h.ctxDone hc)
  · refine Or.inr ?_
    rw [hlog]
    exact List.mem_append_left _ hc

theorem Cancels.mem (h : Cancels o o') {e : Entry} (he : e ∈ o.log) : e ∈ o'.log := by
  obtain ⟨added, hlog, _⟩ := h.log
  rw [hlog]
  exact List.mem_append_left _ he

theorem Cancels.tried (h : Cancels o o') {n : ℕ} {retry : Bool} (ht : Tried o i n retry) :
    Tried o' i n retry := by
  cases retry with
  | false => exact h.sendsOf.trans ht
  | true =>
      obtain ⟨first, hlt, hsends, hmem⟩ := ht
      exact ⟨first, hlt, h.sendsOf.trans hsends, h.mem hmem⟩

theorem Cancels.renewed (h : Cancels o o') {first second : ℕ} (hr : Renewed o.log first second) :
    Renewed o'.log first second := by
  obtain ⟨added, hlog, _⟩ := h.log
  rw [hlog]
  exact hr.append added

theorem Cancels.atMostTwice (h : Cancels o o') (hr : AtMostTwice o.log i) :
    AtMostTwice o'.log i := by
  obtain ⟨added, hlog, hadded⟩ := h.log
  rw [hlog]
  exact hr.append (sendsOf_cancels hadded)

/-- Cancellations by others disturb no call. -/
theorem Cancels.ok (h : Cancels o o') (hok : call.Ok o i) : call.Ok o' i := by
  cases call with
  | start | lock | closeLock | closeMark => exact h.sendsOf.trans hok
  | ensureStream retry =>
      obtain ⟨ht, hretry⟩ := hok
      refine ⟨by rw [h.contexts]; exact h.tried ht, fun hr => ?_⟩
      obtain ⟨hclosed, hcancelled⟩ := hretry hr
      rw [h.closed, h.streamCtx]
      exact ⟨hclosed, fun c hc => h.cancelled (hcancelled c hc)⟩
  | renew retry =>
      rw [Call.Ok, h.contexts, h.closed]
      exact ⟨h.tried hok.1, hok.2⟩
  | create retry =>
      rw [Call.Ok, h.contexts, h.closed, h.stream]
      exact ⟨h.tried hok.1, hok.2.1, hok.2.2.1, fun c hc => h.cancelled (hok.2.2.2 c hc)⟩
  | opening retry =>
      obtain ⟨hclosed, c, hc, ht⟩ := hok
      rw [Call.Ok, h.closed, h.streamCtx]
      exact ⟨hclosed, c, hc, h.tried ht⟩
  | openFailed | unlock | returned => exact h.atMostTwice hok
  | send retry =>
      cases retry with
      | false =>
          rw [Call.Ok, h.closed, h.stream, h.sendsOf]
          exact hok
      | true =>
          obtain ⟨hclosed, first, second, hsends, hstream, hrenewed⟩ := hok
          rw [Call.Ok, h.closed, h.stream, h.sendsOf]
          exact ⟨hclosed, first, second, hsends, hstream, h.renewed hrenewed⟩
  | sendFailed =>
      rw [Call.Ok, h.closed, h.stream, h.sendsOf]
      exact hok
  | closeUnlock | closeSend | closeWait | closeCancel =>
      rw [Call.Ok, h.sendsOf, h.closed, h.streamCtx]
      exact hok
  | closeConn | closeReturned =>
      rw [Call.Ok, h.sendsOf, h.closed, h.contexts]
      exact ⟨hok.1, hok.2.1, fun c hc => h.cancelled (hok.2.2 c hc)⟩

/-- A call that does not hold the mutex keeps what it knows while another one acts. -/
theorem Grows.ok (h : Grows i o o') (hne : j ≠ i) (hholds : ¬ call.Holds) (hok : call.Ok o j) :
    call.Ok o' j := by
  obtain ⟨added, hlog, hadded⟩ := h.log
  have hsends : sendsOf j o'.log = sendsOf j o.log := by
    rw [hlog, sendsOf_append, hadded j hne, List.append_nil]
  have hcancelled : ∀ c, o.Cancelled c → o'.Cancelled c := by
    rintro c (hc | hc)
    · exact Or.inl (h.ctxDone hc)
    · refine Or.inr ?_
      rw [hlog]
      exact List.mem_append_left _ hc
  cases call with
  | start | lock | closeLock => exact hsends.trans hok
  | returned =>
      rw [Call.Ok, hlog]
      exact AtMostTwice.append hok (hadded j hne)
  | closeSend | closeWait | closeCancel =>
      obtain ⟨hs, hclosed, hcancel⟩ := hok
      obtain ⟨hclosed', hctx, _⟩ := h.closed hclosed
      exact ⟨hsends.trans hs, hclosed', hcancel.trans hctx.symm⟩
  | closeConn | closeReturned =>
      obtain ⟨hs, hclosed, hall⟩ := hok
      obtain ⟨hclosed', _, hcontexts⟩ := h.closed hclosed
      refine ⟨hsends.trans hs, hclosed', fun c hc => hcancelled c (hall c ?_)⟩
      rwa [hcontexts] at hc
  | _ => exact absurd trivial hholds

theorem Cancels.grows (h : Cancels o o') (i : ℕ) : Grows i o o' := by
  obtain ⟨added, hlog, hadded⟩ := h.log
  refine ⟨⟨added, hlog, fun j _ => sendsOf_cancels hadded⟩, h.ctxDone, fun hclosed => ?_⟩
  exact ⟨h.closed.trans hclosed, h.streamCtx, h.contexts⟩

theorem Cancels.inv (h : Cancels o o') (hinv : ClientInv o) : ClientInv o' := by
  obtain ⟨added, hlog, hadded⟩ := h.log
  refine ⟨fun c hc halive => ?_, ?_, ?_, fun hopen hmem => ?_, ?_⟩
  · rw [h.contexts] at hc
    rw [h.streamCtx]
    exact hinv.current c hc fun hcancelled => halive (h.cancelled hcancelled)
  · rw [h.streamCtx, h.contexts]
    exact hinv.known
  · rw [h.stream, h.streamCtx]
    exact hinv.stream
  · rw [h.closed] at hopen
    rw [hlog] at hmem
    rcases List.mem_append.mp hmem with hmem | hmem
    · exact hinv.isOpen hopen hmem
    · obtain ⟨c, hc⟩ := hadded _ hmem
      cases hc
  · rw [hlog]
    clear hlog
    induction added using List.reverseRecOn with
    | nil =>
        rw [List.append_nil]
        exact hinv.quiet
    | append_singleton added e ih =>
        rw [← List.append_assoc]
        refine (ih fun e' he' => hadded e' (List.mem_append_left _ he')).snoc fun hwork => ?_
        obtain ⟨c, rfl⟩ := hadded e (by simp)
        cases hwork

end Client

section Actions

variable {addr : Text} {o o' : Client} {i : ℕ} {err : Option Text} {call call' : Call}

theorem Grows.refl (i : ℕ) (o : Client) : Grows i o o := (Cancels.refl o).grows i

theorem Tried.atMostTwice {n : ℕ} {retry : Bool} (h : Tried o i n retry) :
    AtMostTwice o.log i := by
  cases retry with
  | false => exact Or.inl h
  | true =>
      obtain ⟨first, _, hsends, _⟩ := h
      exact Or.inr (Or.inl ⟨first, hsends⟩)

theorem ClientInv.record (h : ClientInv o) {e : Entry} (he : e ≠ .closed)
    (hwork : e.work = true → o.closed = false) : ClientInv (o.record e) where
  current := by
    intro c hc halive
    refine h.current c hc fun hcancelled => halive ?_
    exact hcancelled.imp id (List.mem_append_left _)
  known := h.known
  stream := h.stream
  isOpen := by
    intro hopen hmem
    rcases List.mem_append.mp hmem with hmem | hmem
    · exact h.isOpen hopen hmem
    · exact he (List.mem_singleton.mp hmem).symm
  quiet := h.quiet.snoc fun hw => h.isOpen (hwork hw)

theorem grows_record {e : Entry} (he : ∀ j ≠ i, sendsOf j [e] = []) : Grows i o (o.record e) :=
  ⟨⟨[e], rfl, he⟩, id, fun hclosed => ⟨hclosed, rfl, rfl⟩⟩

/-- After the cancellation of the context in use none is alive. -/
theorem ClientInv.cancel_current (h : ClientInv o) {c : ℕ} (hc : c < o.contexts) :
    (o.cancel o.streamCtx).Cancelled c := by
  by_cases hcancelled : o.Cancelled c
  · exact (cancels_cancel o o.streamCtx).cancelled hcancelled
  · rw [h.current c hc hcancelled]
    exact cancelled_cancel o c

/-- The three things an action keeps. -/
structure Keeps (i : ℕ) (o o' : Client) (call' : Call) : Prop where
  inv : ClientInv o'
  ok : call'.Ok o' i
  grows : Grows i o o'

/-- `ensureStream` goes on with the stream only if its context is alive, which it is not
after a failed `Send`. -/
theorem keeps_ensureStream {retry : Bool} (hinv : ClientInv o)
    (hok : (Call.ensureStream retry).Ok o i)
    (h : Call.next addr i err o (.ensureStream retry) = some (o', call')) :
    Keeps i o o' call' := by
  obtain ⟨ht, hretry⟩ := hok
  rw [Call.next] at h
  split at h
  · cases h
    exact ⟨hinv, ht.atMostTwice, Grows.refl i o⟩
  · rename_i hclosed
    rw [Bool.not_eq_true] at hclosed
    split at h
    · cases h
      exact ⟨hinv, ⟨ht, hclosed⟩, Grows.refl i o⟩
    · cases h
    · rename_i c ctx hstream hctx
      split at h
      · cases h
        exact ⟨hinv, ⟨ht, hclosed⟩, Grows.refl i o⟩
      · rename_i halive
        cases h
        cases retry with
        | true => exact absurd ((hretry rfl).2 ctx hctx) halive
        | false => exact ⟨hinv, ⟨hclosed, ht, by simp [hstream]⟩, Grows.refl i o⟩

theorem keeps_renew {retry : Bool} (hinv : ClientInv o) (hok : (Call.renew retry).Ok o i)
    (h : Call.next addr i err o (.renew retry) = some (o', call')) : Keeps i o o' call' := by
  obtain ⟨ht, hclosed⟩ := hok
  cases h
  have hcancels := cancels_cancel o o.streamCtx
  have hinv' := hcancels.inv hinv
  refine ⟨⟨hinv'.current, hinv'.known, nofun, hinv'.isOpen, hinv'.quiet⟩, ?_, ?_⟩
  · have ht' := hcancels.tried ht
    rw [← hcancels.contexts] at ht'
    refine ⟨ht', hcancels.closed.trans hclosed, rfl, fun c hc => ?_⟩
    rw [hcancels.contexts] at hc
    exact hinv.cancel_current hc
  · have hgrows := hcancels.grows i
    exact ⟨hgrows.log, hgrows.ctxDone, hgrows.closed⟩

theorem keeps_create {retry : Bool} (hinv : ClientInv o) (hok : (Call.create retry).Ok o i)
    (h : Call.next addr i err o (.create retry) = some (o', call')) : Keeps i o o' call' := by
  obtain ⟨ht, hclosed, hstream, hall⟩ := hok
  cases h
  refine ⟨⟨fun c hc halive => ?_, fun c hc => ?_, fun c hc => ?_, hinv.isOpen, hinv.quiet⟩,
    ⟨hclosed, o.contexts, rfl, ht⟩, ⟨⟨[], by simp, by simp [sendsOf]⟩, id, fun hc => ?_⟩⟩
  · rcases Nat.lt_succ_iff_lt_or_eq.mp hc with hc | rfl
    · exact absurd (hall c hc) halive
    · rfl
  · cases hc
    exact Nat.lt_succ_self _
  · rw [hstream] at hc
    cases hc
  · rw [hclosed] at hc
    cases hc

theorem keeps_opening {retry : Bool} (hinv : ClientInv o) (hok : (Call.opening retry).Ok o i)
    (h : Call.next addr i err o (.opening retry) = some (o', call')) : Keeps i o o' call' := by
  obtain ⟨hclosed, c, hctx, ht⟩ := hok
  simp only [Call.next, hctx] at h
  cases err with
  | some err =>
      cases h
      exact ⟨hinv, ht.atMostTwice, Grows.refl i o⟩
  | none =>
      cases h
      have hinv' : ClientInv (o.record (.opened c)) := hinv.record nofun fun _ => hclosed
      have hgrows : Grows i o (o.record (.opened c)) := grows_record fun j _ => rfl
      refine ⟨⟨hinv'.current, hinv'.known, ?_, hinv'.isOpen, hinv'.quiet⟩, ?_,
        ⟨hgrows.log, hgrows.ctxDone, hgrows.closed⟩⟩
      · intro c' hc'
        cases hc'
        exact hctx
      · have hsends : sendsOf i (o.log ++ [.opened c]) = sendsOf i o.log := by
          rw [sendsOf_append]
          exact List.append_nil _
        cases retry with
        | false => exact ⟨hclosed, hsends.trans ht, nofun⟩
        | true =>
            obtain ⟨first, hlt, hfirst, hmem⟩ := ht
            exact ⟨hclosed, first, c, hsends.trans hfirst, rfl, renewed_opened hlt hmem⟩

theorem grows_sent (i stream : ℕ) (o : Client) : Grows i o (o.record (.sent i stream)) := by
  refine grows_record fun j hj => ?_
  rw [sendsOf_sent, if_neg hj.symm]

theorem sendsOf_snoc_sent (i stream : ℕ) (log : List Entry) :
    sendsOf i (log ++ [.sent i stream]) = sendsOf i log ++ [stream] := by
  rw [sendsOf_append, sendsOf_sent, if_pos rfl]

/-- The first `Send` of a call is the only one so far. -/
theorem keeps_send_first (hinv : ClientInv o) (hok : (Call.send false).Ok o i)
    (h : Call.next addr i err o (.send false) = some (o', call')) : Keeps i o o' call' := by
  obtain ⟨hclosed, hsends, hne⟩ := hok
  obtain ⟨g, hg⟩ := Option.ne_none_iff_exists'.mp hne
  have hinv' : ClientInv (o.record (.sent i g)) := hinv.record nofun fun _ => hclosed
  have hone : sendsOf i (o.log ++ [.sent i g]) = [g] := by
    rw [sendsOf_snoc_sent, hsends, List.nil_append]
  cases err with
  | none =>
      simp only [Call.next, hg] at h
      cases h
      exact ⟨hinv', Or.inr (Or.inl ⟨g, hone⟩), grows_sent i g o⟩
  | some err =>
      simp only [Call.next, hg] at h
      cases h
      exact ⟨hinv', ⟨hclosed, g, hone, hg⟩, grows_sent i g o⟩

/-- The second one goes to the new stream, and the call returns in any case. -/
theorem keeps_send_second (hinv : ClientInv o) (hok : (Call.send true).Ok o i)
    (h : Call.next addr i err o (.send true) = some (o', call')) : Keeps i o o' call' := by
  obtain ⟨hclosed, first, g, hsends, hg, hrenewed⟩ := hok
  have hinv' : ClientInv (o.record (.sent i g)) := hinv.record nofun fun _ => hclosed
  have htwo : AtMostTwice (o.log ++ [.sent i g]) i := by
    refine Or.inr (Or.inr ⟨first, g, ?_, hrenewed.append _⟩)
    rw [sendsOf_snoc_sent, hsends, List.singleton_append]
  cases err <;> simp only [Call.next, hg] at h <;> cases h <;>
    exact ⟨hinv', htwo, grows_sent i g o⟩

theorem keeps_sendFailed (hinv : ClientInv o) (hok : Call.sendFailed.Ok o i)
    (h : Call.next addr i err o .sendFailed = some (o', call')) : Keeps i o o' call' := by
  obtain ⟨hclosed, first, hsends, hstream⟩ := hok
  have hctx := hinv.stream first hstream
  simp only [Call.next, hctx] at h
  cases h
  have hcancels := cancels_cancel o (some first)
  refine ⟨hcancels.inv hinv, ⟨⟨first, ?_, hcancels.sendsOf.trans hsends, ?_⟩, fun _ => ?_⟩,
    hcancels.grows i⟩
  · rw [hcancels.contexts]
    exact hinv.known first hctx
  · exact List.mem_append_right _ (List.mem_singleton_self _)
  · refine ⟨hcancels.closed.trans hclosed, fun c hc => ?_⟩
    rw [hcancels.streamCtx, hctx] at hc
    cases hc
    exact cancelled_cancel o first

/-- `Close` sets `closed` and copies the context that is in use from then on. -/
theorem keeps_closeMark (hinv : ClientInv o) (hok : Call.closeMark.Ok o i)
    (h : Call.next addr i err o .closeMark = some (o', call')) : Keeps i o o' call' := by
  cases h
  have hlog : sendsOf i (o.log ++ [.closed]) = [] := by
    rw [sendsOf_append, hok]
    rfl
  refine ⟨⟨fun c hc halive => ?_, hinv.known, hinv.stream, nofun, hinv.quiet.snoc nofun⟩,
    ⟨hlog, rfl, rfl⟩, ⟨⟨[.closed], rfl, fun _ _ => rfl⟩, id, fun _ => ⟨rfl, rfl, rfl⟩⟩⟩
  refine hinv.current c hc fun hcancelled => halive ?_
  exact hcancelled.imp id (List.mem_append_left _)

theorem keeps_closeCancel {cancel : Option ℕ} (hinv : ClientInv o)
    (hok : (Call.closeCancel cancel).Ok o i)
    (h : Call.next addr i err o (.closeCancel cancel) = some (o', call')) :
    Keeps i o o' call' := by
  obtain ⟨hsends, hclosed, rfl⟩ := hok
  cases h
  have hcancels := cancels_cancel o o.streamCtx
  refine ⟨hcancels.inv hinv, ⟨hcancels.sendsOf.trans hsends, hcancels.closed.trans hclosed,
    fun c hc => ?_⟩, hcancels.grows i⟩
  rw [hcancels.contexts] at hc
  exact hinv.cancel_current hc

theorem next_keeps (hinv : ClientInv o) (hok : call.Ok o i)
    (h : Call.next addr i err o call = some (o', call')) : Keeps i o o' call' := by
  have hmu : ∀ m, ClientInv { o with mu := m } := fun m =>
    ⟨hinv.current, hinv.known, hinv.stream, hinv.isOpen, hinv.quiet⟩
  have hgrows : ∀ m, Grows i o { o with mu := m } := fun m =>
    ⟨⟨[], by simp, by simp [sendsOf]⟩, id, fun hclosed => ⟨hclosed, rfl, rfl⟩⟩
  cases call with
  | start =>
      cases err with
      | some err =>
          cases h
          exact ⟨hinv, Or.inl hok, Grows.refl i o⟩
      | none =>
          cases h
          exact ⟨hinv, hok, Grows.refl i o⟩
  | lock =>
      simp only [Call.next, Option.ite_none_right_eq_some] at h
      cases h.2
      exact ⟨hmu _, ⟨hok, by simp⟩, hgrows _⟩
  | ensureStream retry => exact keeps_ensureStream hinv hok h
  | renew retry => exact keeps_renew hinv hok h
  | create retry => exact keeps_create hinv hok h
  | opening retry => exact keeps_opening hinv hok h
  | openFailed err =>
      cases h
      have hcancels := cancels_cancel o o.streamCtx
      exact ⟨hcancels.inv hinv, hcancels.atMostTwice hok, hcancels.grows i⟩
  | send retry =>
      cases retry with
      | false => exact keeps_send_first hinv hok h
      | true => exact keeps_send_second hinv hok h
  | sendFailed => exact keeps_sendFailed hinv hok h
  | unlock err =>
      cases h
      exact ⟨hmu _, hok, hgrows _⟩
  | closeLock =>
      simp only [Call.next, Option.ite_none_right_eq_some] at h
      cases h.2
      exact ⟨hmu _, hok, hgrows _⟩
  | closeMark => exact keeps_closeMark hinv hok h
  | closeUnlock stream cancel =>
      cases h
      exact ⟨hmu _, hok, hgrows _⟩
  | closeSend stream cancel =>
      cases stream <;> cases err <;> cases h <;> exact ⟨hinv, hok, Grows.refl i o⟩
  | closeWait cancel =>
      cases h
      exact ⟨hinv, hok, Grows.refl i o⟩
  | closeCancel cancel => exact keeps_closeCancel hinv hok h
  | closeConn =>
      cases h
      exact ⟨hinv, hok, Grows.refl i o⟩
  | returned err => cases h
  | closeReturned err => cases h

/-- Without the mutex, and while another call holds it, a call can only cancel. -/
theorem next_aside (hholds : ¬ call.Holds) (hmu : o.mu ≠ none)
    (h : Call.next addr i err o call = some (o', call')) : Cancels o o' := by
  cases call with
  | start => cases err <;> cases h <;> exact Cancels.refl o
  | lock | closeLock =>
      rw [Call.next, if_neg hmu] at h
      cases h
  | closeSend stream cancel => cases stream <;> cases err <;> cases h <;> exact Cancels.refl o
  | closeWait | closeConn =>
      cases h
      exact Cancels.refl o
  | closeCancel cancel =>
      cases h
      exact cancels_cancel o cancel
  | returned | closeReturned => cases h
  | _ => exact absurd trivial hholds

/-- A call that holds the mutex after its action has just taken it, or had it before. -/
theorem next_mu (hholds' : call'.Holds) (hmu : call.Holds → o.mu = some i)
    (h : Call.next addr i err o call = some (o', call')) : o'.mu = some i := by
  cases call with
  | start => cases err <;> cases h <;> exact absurd hholds' id
  | lock | closeLock =>
      simp only [Call.next, Option.ite_none_right_eq_some] at h
      cases h.2
      rfl
  | ensureStream retry =>
      rw [Call.next] at h
      split at h
      · cases h
        exact hmu trivial
      · split at h
        · cases h
          exact hmu trivial
        · cases h
        · split at h <;> cases h <;> exact hmu trivial
  | renew | openFailed =>
      cases h
      exact (cancels_cancel o _).mu.trans (hmu trivial)
  | create | closeMark =>
      cases h
      exact hmu trivial
  | opening retry | send retry =>
      simp only [Call.next] at h
      split at h <;> cases h <;> exact hmu trivial
  | sendFailed =>
      rw [Call.next] at h
      split at h
      · cases h
      · cases h
        exact hmu trivial
  | closeSend stream cancel => cases stream <;> cases err <;> cases h <;> exact absurd hholds' id
  | unlock | closeUnlock | closeWait | closeCancel | closeConn =>
      cases h
      exact absurd hholds' id
  | returned | closeReturned => cases h

/-- A call that holds the mutex meets no nil pointer. -/
theorem holder_goesOn (hinv : ClientInv o) (hok : call.Ok o i) (hholds : call.Holds) :
    ∃ next, Call.next addr i err o call = some next := by
  cases call with
  | ensureStream retry =>
      rw [Call.next]
      split
      · exact ⟨_, rfl⟩
      · cases hstream : o.stream with
        | none => exact ⟨_, rfl⟩
        | some c =>
            rw [hinv.stream c hstream]
            simp only
            split <;> exact ⟨_, rfl⟩
  | opening retry =>
      obtain ⟨_, c, hctx, _⟩ := hok
      cases err <;> simp only [Call.next, hctx] <;> exact ⟨_, rfl⟩
  | send retry =>
      have hne : o.stream ≠ none := by
        cases retry with
        | false => exact hok.2.2
        | true =>
            obtain ⟨_, first, g, _, hg, _⟩ := hok
            simp [hg]
      obtain ⟨g, hg⟩ := Option.ne_none_iff_exists'.mp hne
      cases err <;> cases retry <;> simp only [Call.next, hg] <;> exact ⟨_, rfl⟩
  | sendFailed =>
      obtain ⟨_, first, _, hstream⟩ := hok
      rw [Call.next, hinv.stream first hstream]
      exact ⟨_, rfl⟩
  | renew | create | openFailed | unlock | closeMark | closeUnlock => exact ⟨_, rfl⟩
  | _ => exact absurd hholds id

end Actions

end FabricXSdk.Network.Orderer
