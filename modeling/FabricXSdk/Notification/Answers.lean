import FabricXSdk.Blocks.Positions
import FabricXSdk.Notification.Finality

/-!
# What a caller that waits for finality is told

A response of the sidecar has the statuses of transactions and the ids of subscriptions
that timed out; `convertNotificationResponse` turns both into events for `Handle`. A caller
is told the first event for its transaction that is handled after it has registered, unless
the id was unregistered before. So the answer is what the committer has decided about the
transaction, or that the subscription timed out.

## Implementation notes

A `Mark` is what an action of the registry means to a caller: an entry made, an entry
removed, or an event handled, whether or not somebody waits for it. `network/fabricx.Peer`
has no `GetTransactionStatus`, so that its statuses only come from streams; those of another
peer are taken to be decisions as well.
-/

namespace FabricXSdk.Network.FabricX

open Golang Notification
open Blocks.FabricX (CommitterCodes statusFromCommitterStatus)

/-- One pass of the loop of `convertTxStatuses`. The getters of a missing reference return
zero values. -/
def convertTxStatus (codes : CommitterCodes) (s : Proto.TxStatus) : TxStatusEvent :=
  let ref := s.ref.getD ⟨0, 0, []⟩
  let (status, rawCode, reason) := statusFromCommitterStatus codes s.status
  ⟨ref.txId, ref.blockNum, ref.txNum, status, rawCode, reason⟩

def convertTxStatuses (codes : CommitterCodes) (statuses : List Proto.TxStatus) :
    List TxStatusEvent :=
  statuses.map (convertTxStatus codes)

/-- The event of a subscription that timed out. -/
def timeoutEvent (txID : GoString) : TxStatusEvent := ⟨txID, 0, 0, .unknown, 0, []⟩

def convertNotificationResponse (codes : CommitterCodes) (res : Proto.NotificationResponse) :
    List TxStatusEvent :=
  convertTxStatuses codes res.txStatusEvents ++ res.timeoutTxIds.map timeoutEvent

end FabricXSdk.Network.FabricX

namespace FabricXSdk.Notification

open Golang Channel Transition Network.FabricX
open Blocks.FabricX (CommitterCodes)

section Model

inductive Mark
  /-- the call puts its channel into the map -/
  | inserted (i : ℕ)
  /-- the entry under the id is removed, if there is one -/
  | removed (txID : GoString)
  /-- `Handle` is through with an event -/
  | handled (e : TxStatusEvent)
  deriving DecidableEq, Repr

/-- Whether a mark ends a registration under the id. -/
def Mark.About (txID : GoString) : Mark → Prop
  | .inserted _ => False
  | .removed id => id = txID
  | .handled e => e.txID = txID

def Registry.mark (s : Registry) (a : RegistryLabel) (t : Registry) : Option Mark :=
  match a with
  | .insert i => some (.inserted i)
  | .remove i => s.calls[i]?.map fun c => .removed c.txID
  | .evict txID => some (.removed txID)
  | .deliver e => some (.handled e)
  -- nobody waits for the next event of `Handle`
  | .internal => if t.mu = s.mu then none else s.mu.bind fun p => p.2.head?.map Mark.handled
  | _ => none

def Listener.mark (f : Listener) (a : ListenerLabel) (g : Listener) : Option Mark :=
  match a with
  | .registry r => f.registry.mark r g.registry
  | _ => none

variable (codes : CommitterCodes) (verdict : GoString → Option (ℕ × ℕ × Int))

/-- The event tells what the committer has decided about its transaction: the block, the
number in the block, and a code. -/
def IsVerdict (e : TxStatusEvent) : Prop :=
  ∃ blockNum txNum code, verdict e.txID = some (blockNum, txNum, code) ∧
    e = convertTxStatus codes ⟨some ⟨blockNum, txNum, e.txID⟩, code⟩

/-- Every status of the response is one that the committer has decided. -/
def Honest (res : Proto.NotificationResponse) : Prop :=
  ∀ s ∈ res.txStatusEvents, ∃ ref, s.ref = some ref ∧
    verdict ref.txId = some (ref.blockNum, ref.txNum, s.status)

/-- What is handled comes from honest responses, or from elsewhere and is decided. -/
def Truthful : ListenerLabel → Prop
  | .registry (.handle (.stream _) events) =>
      ∃ res, Honest verdict res ∧ events = convertNotificationResponse codes res
  | .registry (.handle _ events) => ∀ e ∈ events, IsVerdict codes verdict e
  | _ => True

def TruthfulStep (f : Listener) (a : ListenerLabel) (g : Listener) : Prop :=
  ListenerStep f a g ∧ Truthful codes verdict a

end Model

section Marks

variable {s t : Registry} {a : RegistryLabel} {trace : List Mark} {i j : ℕ} {c c' : Call}
  {txID : GoString} {e : TxStatusEvent}

/-- Who waits, who has been told what, and who has been unregistered. -/
structure Traced (trace : List Mark) (s : Registry) : Prop where
  made : ∀ i, Mark.inserted i ∈ trace → i < s.calls.length
  pending : ∀ txID i, s.pending.lookup txID = some i →
    Quiet (.inserted i) (Mark.About txID) trace
  told : ∀ (i : ℕ) c, s.calls[i]? = some c → ∀ e ∈ c.received,
    FirstSince (.inserted i) (Mark.About c.txID) (.handled e) trace
  untold : ∀ (i : ℕ) c, s.calls[i]? = some c → c.received = [] → Mark.inserted i ∈ trace →
    s.pending.lookup c.txID = some i ∨
      FirstSince (.inserted i) (Mark.About c.txID) (.removed c.txID) trace

theorem Traced.init : Traced [] Registry.init where
  made := fun _ h => nomatch h
  pending := fun _ _ h => nomatch h
  told := fun _ _ h => nomatch h
  untold := fun _ _ h => nomatch h

/-- A step of one call that leaves the map. -/
theorem Traced.update (h : Traced trace s) (hi : s.calls[i]? = some c) (hkept : Call.Kept c c') :
    Traced trace { s with calls := s.calls.set i c' } where
  made := by
    intro j hj
    rw [List.length_set]
    exact h.made j hj
  pending := h.pending
  told := by
    intro j d hd
    rcases (getElem?_set_eq_some hi).mp hd with ⟨rfl, rfl⟩ | ⟨_, hd⟩
    · rw [hkept.received, hkept.txID]
      exact h.told _ c hi
    · exact h.told j d hd
  untold := by
    intro j d hd
    rcases (getElem?_set_eq_some hi).mp hd with ⟨rfl, rfl⟩ | ⟨_, hd⟩
    · rw [hkept.received, hkept.txID]
      exact h.untold _ c hi
    · exact h.untold j d hd

theorem inserted_mem {m : Mark} (h : Mark.inserted i ∈ trace ++ [m]) (hm : m ≠ .inserted i) :
    Mark.inserted i ∈ trace := by
  rcases List.mem_append.mp h with h | h
  · exact h
  · exact absurd (List.mem_singleton.mp h).symm hm

/-- The entry under an id is removed. -/
theorem Traced.erase (h : Traced trace s) (txID : GoString) :
    Traced (trace ++ [.removed txID]) { s with pending := s.pending.erase txID } where
  made := fun i hi => h.made i (inserted_mem hi nofun)
  pending := by
    intro id i hlookup
    obtain ⟨hne, hold⟩ := lookup_erase_eq_some.mp hlookup
    exact (h.pending id i hold).snoc fun heq => hne heq.symm
  told := fun i c hc e he => (h.told i c hc e he).append _
  untold := by
    intro i c hc hnone hi
    rcases h.untold i c hc hnone (inserted_mem hi nofun) with hlookup | hremoved
    · by_cases hid : c.txID = txID
      · -- the call loses its own entry
        rw [← hid]
        exact Or.inr ((h.pending c.txID i hlookup).first _)
      · exact Or.inl (lookup_erase_eq_some.mpr ⟨hid, hlookup⟩)
    · exact Or.inr (hremoved.append _)

theorem Traced.insert (h : Traced trace s) (hi : s.calls[i]? = some c)
    (hnew : s.pending.lookup c.txID = none) :
    Traced (trace ++ [.inserted i]) { s with pending := s.pending.insert c.txID i } where
  made := by
    intro j hj
    by_cases hij : j = i
    · exact hij ▸ (List.getElem?_eq_some_iff.mp hi).choose
    · exact h.made j (inserted_mem hj fun heq => hij (Mark.inserted.inj heq).symm)
  pending := by
    intro txID j hlookup
    rcases lookup_insert_eq_some.mp hlookup with ⟨rfl, rfl⟩ | ⟨_, hold⟩
    · exact Quiet.begin ..
    · exact (h.pending txID j hold).snoc id
  told := fun j d hd e he => (h.told j d hd e he).append _
  untold := by
    intro j d hd hnone hj
    by_cases hij : j = i
    · subst hij
      obtain rfl : c = d := Option.some.inj (hi.symm.trans hd)
      exact Or.inl (lookup_insert_eq_some.mpr (Or.inl ⟨rfl, rfl⟩))
    · have hj' := inserted_mem hj fun heq => hij (Mark.inserted.inj heq).symm
      rcases h.untold j d hd hnone hj' with hlookup | hremoved
      · refine Or.inl (lookup_insert_eq_some.mpr (Or.inr ⟨?_, hlookup⟩))
        intro hid
        rw [hid, hnew] at hlookup
        cases hlookup
      · exact Or.inr (hremoved.append _)

/-- An event for which nobody waits. -/
theorem Traced.skip (h : Traced trace s) (hnone : s.pending.lookup e.txID = none) :
    Traced (trace ++ [.handled e]) s where
  made := fun i hi => h.made i (inserted_mem hi nofun)
  pending := by
    intro txID i hlookup
    refine (h.pending txID i hlookup).snoc fun heq => ?_
    rw [← show e.txID = txID from heq, hnone] at hlookup
    cases hlookup
  told := fun i c hc e he => (h.told i c hc e he).append _
  untold := by
    intro i c hc hreceived hi
    rcases h.untold i c hc hreceived (inserted_mem hi nofun) with hlookup | hremoved
    · exact Or.inl hlookup
    · exact Or.inr (hremoved.append _)

/-- An event for the call that waits for it. -/
theorem Traced.deliver (h : Traced trace s) (hs : s.Sound)
    (hsome : s.pending.lookup e.txID = some i) (hi : s.calls[i]? = some c)
    (ch : Chan TxStatusEvent) :
    Traced (trace ++ [.handled e])
      { s with
        pending := s.pending.erase e.txID
        calls := s.calls.set i { c with responseCh := ch, received := c.received ++ [e] } } := by
  obtain ⟨hown, hnone, _⟩ := hs.owner_of hsome hi
  refine ⟨fun j hj => ?_, ?_, ?_, ?_⟩
  · rw [List.length_set]
    exact h.made j (inserted_mem hj nofun)
  · intro txID j hlookup
    obtain ⟨hne, hold⟩ := lookup_erase_eq_some.mp hlookup
    exact (h.pending txID j hold).snoc fun heq => hne heq.symm
  · intro j d hd e' he'
    rcases (getElem?_set_eq_some hi).mp hd with ⟨rfl, rfl⟩ | ⟨_, hd⟩
    · rw [hnone, List.nil_append, List.mem_singleton] at he'
      rw [he', hown]
      exact (h.pending e.txID _ hsome).first _
    · exact (h.told j d hd e' he').append _
  · intro j d hd hempty hj
    rcases (getElem?_set_eq_some hi).mp hd with ⟨rfl, rfl⟩ | ⟨hij, hd⟩
    · simp at hempty
    · rcases h.untold j d hd hempty (inserted_mem hj nofun) with hlookup | hremoved
      · -- another call waits for another transaction
        refine Or.inl (lookup_erase_eq_some.mpr ⟨fun heq => ?_, hlookup⟩)
        rw [heq, hsome] at hlookup
        exact hij (Option.some.inj hlookup)
      · exact Or.inr (hremoved.append _)

/-- The state of the mutex does not matter. -/
theorem Traced.locked (h : Traced trace s) (mu : Option (Handler × List TxStatusEvent)) :
    Traced trace { s with mu := mu } :=
  ⟨h.made, h.pending, h.told, h.untold⟩

theorem Traced.call (h : Traced trace s) (txID : GoString) (wait : Bool) :
    Traced trace { s with calls := s.calls ++ [Call.new txID wait] } where
  made := by
    intro i hi
    rw [List.length_append]
    exact Nat.lt_add_right _ (h.made i hi)
  pending := h.pending
  told := by
    intro i c hc e he
    rcases getElem?_concat_eq_some.mp hc with hc | ⟨_, rfl⟩
    · exact h.told i c hc e he
    · cases he
  untold := by
    intro i c hc hnone hi
    rcases getElem?_concat_eq_some.mp hc with hc | ⟨rfl, _⟩
    · exact h.untold i c hc hnone hi
    · exact absurd (h.made _ hi) (Nat.lt_irrefl _)

/-- A step that leaves no mark. -/
theorem Traced.silent (h : Traced trace t) (hmark : s.mark a t = none) :
    Traced (trace ++ (s.mark a t).toList) t := by
  rw [hmark, Option.toList_none, List.append_nil]
  exact h

theorem Traced.step (h : Traced trace s) (hs : s.Sound) (hstep : RegistryStep s a t) :
    Traced (trace ++ (s.mark a t).toList) t := by
  cases hstep with
  | call txID wait => exact (h.call txID wait).silent rfl
  | alone hi hcall => exact (h.update hi hcall.kept).silent (if_pos rfl)
  | refuse hi hcall _ _ => exact (h.update hi hcall.kept).silent (if_pos rfl)
  | queue hi hcall => exact (h.update hi hcall.kept).silent rfl
  | insert hi hcall _ hnew => exact (h.insert hi hnew).update hi hcall.kept
  | remove hi hcall _ =>
      rw [Registry.mark, hi]
      exact (h.erase _).update hi hcall.kept
  | evict txID _ => exact h.erase txID
  | handle _ _ _ => exact (h.locked _).silent rfl
  | handled _ => exact (h.locked _).silent rfl
  | @skip handler e rest hmu hnone =>
      have hne : some (handler, rest) ≠ s.mu := by
        rw [hmu]
        simp
      rw [Registry.mark, if_neg hne, hmu]
      exact (h.skip hnone).locked _
  | deliver hmu hsome hi _ => exact (h.deliver hs hsome hi _).locked _

end Marks

section Truth

variable {P : TxStatusEvent → Prop} {s t : Registry} {a : RegistryLabel} {c c' : Call}
  {l : CallLabel} {e : TxStatusEvent}

/-- What a call has got out of its channel was sent on it, and has the property. -/
structure Call.Told (P : TxStatusEvent → Prop) (c : Call) : Prop where
  buffered : ∀ e ∈ c.responseCh.buffer, e ∈ c.received
  resolved : ∀ e, c.pc = .resolved e → e ∈ c.received
  received : ∀ e ∈ c.received, P e

theorem Call.Told.new (txID : GoString) (wait : Bool) : (Call.new txID wait).Told P where
  buffered := fun _ he => nomatch he
  resolved := fun _ h => nomatch h
  received := fun _ he => nomatch he

theorem Call.Told.step (hc : c.Told P) (h : CallStep c l c') : c'.Told P := by
  cases h with
  | expire _ _ => exact ⟨hc.buffered, hc.resolved, hc.received⟩
  | receive _ hrecv =>
      obtain ⟨_, hbuffer⟩ := Chan.recv_eq_some.mp hrecv
      have hall := hc.buffered
      rw [hbuffer, List.forall_mem_cons] at hall
      refine ⟨hall.2, fun e he => ?_, hc.received⟩
      cases he
      exact hall.1
  | queue _ =>
      refine ⟨hc.buffered, fun e he => ?_, hc.received⟩
      dsimp only at he
      split at he <;> cases he
  | _ => exact ⟨hc.buffered, nofun, hc.received⟩

theorem Call.Told.deliver {ch : Chan TxStatusEvent} (hc : c.Told P) (he : P e)
    (hsend : c.responseCh.send e = some ch) :
    ({ c with responseCh := ch, received := c.received ++ [e] } : Call).Told P where
  buffered := by
    intro e' he'
    rw [(Chan.send_eq_some.mp hsend).2] at he'
    rcases List.mem_append.mp he' with he' | he'
    · exact List.mem_append_left _ (hc.buffered e' he')
    · exact List.mem_append_right _ he'
  resolved := fun e' he' => List.mem_append_left _ (hc.resolved e' he')
  received := by
    intro e' he'
    rcases List.mem_append.mp he' with he' | he'
    · exact hc.received e' he'
    · rw [List.mem_singleton.mp he']
      exact he

/-- Every event that is being handled, or was sent to a call, has the property. -/
structure Registry.Told (P : TxStatusEvent → Prop) (s : Registry) : Prop where
  mu : ∀ h events, s.mu = some (h, events) → ∀ e ∈ events, P e
  calls : ∀ c ∈ s.calls, c.Told P

theorem Registry.Told.init : Registry.init.Told P where
  mu := fun _ _ h => nomatch h
  calls := fun _ h => nomatch h

theorem Registry.Told.set {i : ℕ} (hs : s.Told P) (hc' : c'.Told P) (pending : GoMap ℕ) :
    ({ s with pending := pending, calls := s.calls.set i c' } : Registry).Told P where
  mu := hs.mu
  calls := by
    intro d hd
    rcases List.mem_or_eq_of_mem_set hd with hd | rfl
    · exact hs.calls d hd
    · exact hc'

theorem Registry.Told.step (hs : s.Told P) (h : RegistryStep s a t)
    (hevents : ∀ handler events, a = .handle handler events → ∀ e ∈ events, P e) : t.Told P := by
  cases h with
  | call txID wait =>
      refine ⟨hs.mu, fun c hc => ?_⟩
      rcases List.mem_append.mp hc with hc | hc
      · exact hs.calls c hc
      · rw [List.mem_singleton.mp hc]
        exact Call.Told.new txID wait
  | alone hi hstep | refuse hi hstep _ _ | queue hi hstep | insert hi hstep _ _
  | remove hi hstep _ => exact hs.set ((hs.calls _ (List.mem_of_getElem? hi)).step hstep) _
  | evict _ _ => exact ⟨hs.mu, hs.calls⟩
  | handle handler events _ =>
      refine ⟨?_, hs.calls⟩
      rintro _ _ ⟨⟩
      exact hevents handler events rfl
  | @skip handler e rest hmu _ =>
      refine ⟨?_, hs.calls⟩
      rintro _ _ ⟨⟩
      exact fun e' he' => hs.mu _ _ hmu e' (List.mem_cons_of_mem _ he')
  | @deliver handler e rest i c ch hmu _ hi hsend =>
      have he := hs.mu _ _ hmu
      rw [List.forall_mem_cons] at he
      refine ⟨?_, (hs.set ((hs.calls c (List.mem_of_getElem? hi)).deliver he.1 hsend) ∅).calls⟩
      rintro _ _ ⟨⟩
      exact he.2
  | handled _ => exact ⟨nofun, hs.calls⟩

variable {codes : CommitterCodes} {verdict : GoString → Option (ℕ × ℕ × Int)}

/-- The events of an honest response are decisions, or time-outs. -/
theorem Honest.events {res : Proto.NotificationResponse} (h : Honest verdict res) :
    ∀ e ∈ convertNotificationResponse codes res,
      IsVerdict codes verdict e ∨ e = timeoutEvent e.txID := by
  intro e he
  rcases List.mem_append.mp he with he | he
  · obtain ⟨s, hs, rfl⟩ := List.mem_map.mp he
    obtain ⟨ref, href, hverdict⟩ := h s hs
    have htxID : (convertTxStatus codes s).txID = ref.txId := by
      rw [convertTxStatus, href]
      rfl
    refine Or.inl ⟨ref.blockNum, ref.txNum, s.status, by rw [htxID, hverdict], ?_⟩
    rw [htxID, ← href]
  · obtain ⟨txID, _, rfl⟩ := List.mem_map.mp he
    exact Or.inr rfl

theorem Truthful.events {handler : Handler} {events : List TxStatusEvent}
    (h : Truthful codes verdict (.registry (.handle handler events))) :
    ∀ e ∈ events, IsVerdict codes verdict e ∨ e = timeoutEvent e.txID := by
  cases handler with
  | stream k =>
      obtain ⟨res, hres, rfl⟩ := h
      exact hres.events
  | reconcile k => exact fun e he => Or.inl (h e he)
  | other => exact fun e he => Or.inl (h e he)

end Truth

section Answers

variable {codes : CommitterCodes} {verdict : GoString → Option (ℕ × ℕ × Int)} {f g : Listener}
  {trace : List Mark}

/-- What is known of the registry after a run with these marks. -/
structure AnswersInv (codes : CommitterCodes) (verdict : GoString → Option (ℕ × ℕ × Int))
    (trace : List Mark) (s : Registry) : Prop where
  sound : s.Sound
  traced : Traced trace s
  told : s.Told fun e => IsVerdict codes verdict e ∨ e = timeoutEvent e.txID

theorem AnswersInv.step {a : ListenerLabel} (h : AnswersInv codes verdict trace f.registry)
    (hstep : TruthfulStep codes verdict f a g) :
    AnswersInv codes verdict (trace ++ (f.mark a g).toList) g.registry := by
  obtain ⟨hstep, htruthful⟩ := hstep
  rcases hstep.onRegistry with ⟨hsame, ha⟩ | ⟨r, rfl, hr⟩
  · have hmark : f.mark a g = none := by
      cases a with
      | registry r => exact absurd rfl (ha r)
      | _ => rfl
    rw [hmark, hsame, Option.toList_none, List.append_nil]
    exact h
  · refine ⟨h.sound.step hr, h.traced.step h.sound hr, h.told.step hr ?_⟩
    rintro handler events rfl
    exact htruthful.events

/-- However calls, sessions and events interleave, a call for a transaction is told the
first event for it that is handled after the call has registered, and this is what the
committer has decided or that the subscription timed out. A call that has registered and
was not told anything has missed nothing: no event for the transaction was handled since,
or the id was unregistered before. -/
theorem finality_answers_first_report
    (h : Observed (TruthfulStep codes verdict) Listener.mark .init trace f) {i : ℕ} {c : Call}
    (hc : f.registry.calls[i]? = some c) :
    (∀ e, c.pc = .resolved e →
      e.txID = c.txID ∧ (IsVerdict codes verdict e ∨ e = timeoutEvent c.txID) ∧
        FirstSince (.inserted i) (Mark.About c.txID) (.handled e) trace) ∧
    (c.received = [] → Mark.inserted i ∈ trace →
      Quiet (.inserted i) (Mark.About c.txID) trace ∨
        FirstSince (.inserted i) (Mark.About c.txID) (.removed c.txID) trace) := by
  have hinv : AnswersInv codes verdict trace f.registry := by
    refine @Observed.invariant _ _ _ _ _ _ _ _
      (fun trace f => AnswersInv codes verdict trace f.registry) h ?_ ?_
    · exact ⟨Registry.Sound.init, Traced.init, Registry.Told.init⟩
    · exact fun trace f a g hf hstep => hf.step hstep
  have hmem := List.mem_of_getElem? hc
  have htold := hinv.told.calls c hmem
  refine ⟨fun e he => ?_, fun hnone hi => ?_⟩
  · have hreceived := htold.resolved e he
    have hid := (hinv.sound.calls c hmem).own e hreceived
    refine ⟨hid, ?_, hinv.traced.told i c hc e hreceived⟩
    rw [← hid]
    exact htold.received e hreceived
  · rcases hinv.traced.untold i c hc hnone hi with hlookup | hremoved
    · exact Or.inl (hinv.traced.pending c.txID i hlookup)
    · exact Or.inr hremoved

end Answers

section Sample

open Blocks (sampleStatusCodes)

/-- The transaction was committed in block 5. -/
def sampleVerdict : GoString → Option (ℕ × ℕ × Int) := fun _ => some (5, 0, 1)

def sampleResponse : Proto.NotificationResponse := ⟨[⟨some ⟨5, 0, sampleTxID⟩, 1⟩], [sampleTxID]⟩

theorem sampleResponse_honest : Honest sampleVerdict sampleResponse := by
  intro s hs
  obtain rfl := List.mem_singleton.mp hs
  exact ⟨_, rfl, rfl⟩

/-- A response that reports the transaction and then its time-out. -/
theorem finality_answers_first_report_sample :
    ∃ trace f c e, Observed (TruthfulStep sampleStatusCodes sampleVerdict) Listener.mark .init
        trace f ∧
      f.registry.calls[0]? = some c ∧ c.pc = .resolved e ∧ e.status = .committed ∧
      e.blockNum = 5 ∧
      FirstSince (.inserted 0) (Mark.About sampleTxID) (.handled e) trace := by
  have h₁ : Observed (TruthfulStep sampleStatusCodes sampleVerdict) Listener.mark .init _ _ :=
    Observed.refl.silent ⟨.connect rfl rfl, trivial⟩ rfl
  have h₂ := h₁.silent ⟨.notify (k := 0) rfl (Or.inl rfl) (.opens rfl), trivial⟩ rfl
  have h₃ := h₂.silent ⟨.registry rfl (.call sampleTxID true), trivial⟩ rfl
  have h₄ := h₃.event ⟨.registry rfl (.insert (i := 0) rfl (.insert rfl) rfl rfl), trivial⟩ rfl
  have h₅ := h₄.silent ⟨.queue (.queue (i := 0) rfl (.queue rfl)) rfl, trivial⟩ rfl
  have h₆ := h₅.silent ⟨.notify (k := 0) rfl (Or.inl rfl) (.receives
    (convertNotificationResponse sampleStatusCodes sampleResponse) rfl), trivial⟩ rfl
  have h₇ := h₆.silent ⟨.process (k := 0) rfl (.processes rfl) (.handle _ _ rfl), sampleResponse,
    sampleResponse_honest, rfl⟩ rfl
  have h₈ := h₇.event ⟨.registry rfl (.deliver (i := 0) rfl rfl rfl rfl), trivial⟩ rfl
  have h₉ := h₈.silent ⟨.registry rfl (.alone (i := 0) rfl (.receive (Or.inr rfl) rfl)), trivial⟩
    rfl
  have hanswer := finality_answers_first_report (i := 0) h₉ rfl
  obtain ⟨_, _, hfirst⟩ := hanswer.1 _ rfl
  exact ⟨_, _, _, _, h₉, rfl, rfl, rfl, rfl, hfirst⟩

end Sample

end FabricXSdk.Notification
