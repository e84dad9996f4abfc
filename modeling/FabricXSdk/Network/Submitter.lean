import FabricXSdk.Lib.Components
import FabricXSdk.Network.Broadcasts

/-!
# Submitting to several orderers

`Submit` packages an endorsement and broadcasts the envelope to the orderers one after the
other. It fails if more than half of them did. `Close` closes all of them, each in a
goroutine of its own, and waits for the last.

## Implementation notes

Each orderer is a system of its own, and a call of `Broadcast` or `Close` on it is one of
its calls, known by its number. A task is a call of `Submit` or of `Close` on the submitter;
beside what the code keeps, a `Submit` records the number and the result of each
`Broadcast` it has made. The orderers share the context they were made with.
-/

namespace FabricXSdk.Network.Submitter

open Golang Transition

/-- The addresses of the orderers, and the time to wait after a submission. -/
structure Config where
  addr : ℕ → Text
  /-- A duration, possibly negative. -/
  waitAfterSubmit : Int

/-- The places of a call of `Submit` and of a call of `Close`. -/
inductive Task
  | packageTx
  /-- At the head of the loop, which has come to the orderer at position `done.length`. -/
  | loop (done : List (ℕ × Option Text)) (errs : ℕ)
  /-- Inside the `Broadcast` of that orderer. -/
  | broadcast (done : List (ℕ × Option Text)) (call : ℕ) (errs : ℕ)
  | sleep (done : List (ℕ × Option Text))
  | returned (done : List (ℕ × Option Text)) (err : Option Text)
  /-- The calls of the goroutines that run already. -/
  | close (calls : List (Option ℕ))
  | closeReturned (err : Option Text)

/-- `errors.Join`. -/
def errorsJoin (errs : List (Option Text)) : Option Text :=
  match errs.filterMap id with
  | [] => none
  | errs => some (List.intercalate [.lit "\n"] errs)

/-- What the `Close` of an orderer has returned, if it has. -/
def closeResult (o : Orderer.System) (call : Option ℕ) : Option (Option Text) :=
  match call.bind fun call => o.calls[call]? with
  | some (.closeReturned err) => some err
  | _ => none

/-- The next action of a task other than the start of a goroutine; `err` is what `PackageTx`
returns. -/
def Task.next (cfg : Config) (err : Option Text) (orderers : List Orderer.System) :
    Task → Option (List Orderer.System × Task)
  | .packageTx =>
      match err with
      | some err => some (orderers, .returned [] (some ([.lit "package proposal: "] ++ err)))
      | none => some (orderers, .loop [] 0)
  | .loop done errs =>
      match orderers[done.length]? with
      | some o =>
          (o.step (cfg.addr done.length) .broadcast).map fun o' =>
            (orderers.set done.length o', .broadcast done o.calls.length errs)
      | none =>
          if orderers.length < errs * 2 then
            some (orderers, .returned done (some [.lit "error broadcasting"]))
          else if 0 < cfg.waitAfterSubmit then some (orderers, .sleep done)
          else some (orderers, .returned done none)
  | .broadcast done call errs =>
      match orderers[done.length]?.bind fun o => o.calls[call]? with
      | some (.returned (some err)) =>
          some (orderers, .loop (done ++ [(call, some err)]) (errs + 1))
      | some (.returned none) => some (orderers, .loop (done ++ [(call, none)]) errs)
      | _ => none
  | .sleep done => some (orderers, .returned done none)
  | .returned _ _ => none
  | .close calls =>
      -- `wg.Wait` returns when all goroutines have
      ((orderers.zip calls).mapM fun p => closeResult p.1 p.2).map fun errs =>
        (orderers, .closeReturned (errorsJoin errs))
  | .closeReturned _ => none

/-- The goroutine for the orderer at position `i` starts, with its call of `Close`. -/
def Task.go (cfg : Config) (i : ℕ) (orderers : List Orderer.System) :
    Task → Option (List Orderer.System × Task)
  | .close calls =>
      match orderers[i]?, calls[i]? with
      | some o, some none =>
          (o.step (cfg.addr i) .close).map fun o' =>
            (orderers.set i o', .close (calls.set i (some o.calls.length)))
      | _, _ => none
  | _ => none

structure System where
  orderers : List Orderer.System
  tasks : List Task

/-- A submitter that was just made for `n` orderers. -/
def System.init (n : ℕ) : System := ⟨List.replicate n .init, []⟩

inductive Label
  | submit
  | close
  | act (k : ℕ) (err : Option Text)
  | go (k i : ℕ)
  /-- An action of a call on the orderer at position `i`. -/
  | call (i c : ℕ) (err : Option Text)
  /-- The reply reader of a stream to the orderer at position `i` returns. -/
  | exit (i stream : ℕ)
  | ctxDone

/-- A step of the orderer at position `i`. -/
def System.orderer (cfg : Config) (s : System) (i : ℕ) (a : Orderer.Label) : Option System :=
  (s.orderers[i]?.bind fun o => o.step (cfg.addr i) a).map fun o' =>
    { s with orderers := s.orderers.set i o' }

def System.step (cfg : Config) (s : System) : Label → Option System
  | .submit => some { s with tasks := s.tasks ++ [.packageTx] }
  | .close => some { s with tasks := s.tasks ++ [.close (s.orderers.map fun _ => none)] }
  | .act k err =>
      (s.tasks[k]?.bind (Task.next cfg err s.orderers)).map fun next =>
        ⟨next.1, s.tasks.set k next.2⟩
  | .go k i =>
      (s.tasks[k]?.bind (Task.go cfg i s.orderers)).map fun next =>
        ⟨next.1, s.tasks.set k next.2⟩
  | .call i c err => s.orderer cfg i (.act c err)
  | .exit i stream => s.orderer cfg i (.exit stream)
  | .ctxDone =>
      some { s with orderers := s.orderers.map fun o =>
        { o with client := { o.client with ctxDone := true } } }

def Step (cfg : Config) (s : System) (a : Label) (s' : System) : Prop := s.step cfg a = some s'

/-- The number of the `Broadcast` that a `Submit` has called on the orderer at position `i`. -/
def Task.callOn (i : ℕ) : Task → Option ℕ
  | .loop done _ | .sleep done | .returned done _ => (done.map Prod.fst)[i]?
  | .broadcast done call _ => (done.map Prod.fst ++ [call])[i]?
  | .packageTx | .close _ | .closeReturned _ => none

/-- A `Submit` that came past the packaging and has returned `err`. -/
structure Submitted (s : System) (k : ℕ) (done : List (ℕ × Option Text)) (err : Option Text) :
    Prop where
  /-- It has called `Broadcast` on every orderer. -/
  all : done.length = s.orderers.length
  /-- The results are those of its calls. A call has handed the envelope to at most two
  streams, the second in place of the first, and to at least one if it returned nil. -/
  results : ∀ (i c : ℕ) r, done[i]? = some (c, r) → ∃ o, s.orderers[i]? = some o ∧
    o.calls[c]? = some (.returned r) ∧ Orderer.AtMostTwice o.client.log c ∧
      (r = none → Orderer.sendsOf c o.client.log ≠ [])
  /-- No other `Submit` has used these calls. -/
  own : ∀ (k' : ℕ) task, s.tasks[k']? = some task → k' ≠ k → ∀ (i : ℕ) p, done[i]? = some p →
    task.callOn i ≠ some p.1
  /-- It fails if more than half of them have failed. -/
  verdict : err = if s.orderers.length < 2 * done.countP fun p => p.2.isSome then
    some [.lit "error broadcasting"] else none
  /-- A nil error means that half of them have sent the envelope. -/
  half : err = none → s.orderers.length ≤ 2 * done.countP fun p => p.2.isNone

end FabricXSdk.Network.Submitter

namespace FabricXSdk.Network.Orderer

open Golang

section Outcome

variable {addr : Text} {s s' : System} {a : Label} {o o' : Client} {i : ℕ} {err : Option Text}
  {call call' : Call}

/-- A call that has returned stays as it is. -/
theorem step_of_finished (hfinished : ∀ err o, Call.next addr i err o call = none)
    (hi : s.calls[i]? = some call) (hstep : Step addr s a s') : s'.calls[i]? = some call := by
  have hlt : i < s.calls.length := (List.getElem?_eq_some_iff.mp hi).choose
  cases a with
  | broadcast | close =>
      cases hstep
      rw [List.getElem?_append_left hlt]
      exact hi
  | act j err =>
      obtain ⟨⟨o', call'⟩, hnext, rfl⟩ := Option.map_eq_some_iff.mp hstep
      obtain ⟨other, hj, hnext⟩ := Option.bind_eq_some_iff.mp hnext
      by_cases hji : j = i
      · subst hji
        obtain rfl := Option.some.inj (hj.symm.trans hi)
        rw [hfinished] at hnext
        cases hnext
      · rw [List.getElem?_set_ne hji]
        exact hi
  | exit stream =>
      rw [Step, System.step, Option.ite_none_right_eq_some] at hstep
      cases hstep.2
      exact hi
  | ctxDone =>
      cases hstep
      exact hi

/-- The number of calls does not shrink. -/
theorem step_calls_length (hstep : Step addr s a s') : s.calls.length ≤ s'.calls.length := by
  cases a with
  | broadcast | close =>
      cases hstep
      rw [List.length_append]
      exact Nat.le_add_right ..
  | act j err =>
      obtain ⟨next, _, rfl⟩ := Option.map_eq_some_iff.mp hstep
      exact (List.length_set ..).ge
  | exit stream =>
      rw [Step, System.step, Option.ite_none_right_eq_some] at hstep
      cases hstep.2
      exact le_rfl
  | ctxDone =>
      cases hstep
      exact le_rfl

/-- What is in the log stays there. -/
theorem SystemInv.log_step (h : SystemInv s) (hstep : Step addr s a s') :
    s.client.log <+: s'.client.log := by
  cases a with
  | broadcast | close | ctxDone =>
      cases hstep
      exact List.prefix_rfl
  | act j err =>
      obtain ⟨⟨o', call'⟩, hnext, rfl⟩ := Option.map_eq_some_iff.mp hstep
      obtain ⟨call, hj, hnext⟩ := Option.bind_eq_some_iff.mp hnext
      obtain ⟨added, hlog, _⟩ := (next_keeps h.client (h.ok j call hj) hnext).grows.log
      exact ⟨added, hlog.symm⟩
  | exit stream =>
      rw [Step, System.step, Option.ite_none_right_eq_some] at hstep
      cases hstep.2
      exact List.prefix_append ..

/-- A `Broadcast` that is to return nil has sent its envelope. -/
def Call.Sent (log : List Entry) (i : ℕ) : Call → Prop
  | .unlock none | .returned none => sendsOf i log ≠ []
  | _ => True

theorem Call.Sent.mono {log log' : List Entry} (h : call.Sent log i) (hlog : log <+: log') :
    call.Sent log' i := by
  obtain ⟨added, rfl⟩ := hlog
  have happend : sendsOf i log ≠ [] → sendsOf i (log ++ added) ≠ [] := by
    intro hne hnil
    rw [sendsOf_append] at hnil
    exact hne (List.append_eq_nil_iff.mp hnil).1
  cases call with
  | unlock err | returned err =>
      cases err with
      | none => exact happend h
      | some err => trivial
  | _ => trivial

theorem next_sent (hsent : call.Sent o.log i)
    (h : Call.next addr i err o call = some (o', call')) : call'.Sent o'.log i := by
  have hrecord : ∀ stream, sendsOf i (o.log ++ [.sent i stream]) ≠ [] := by
    intro stream hnil
    rw [sendsOf_snoc_sent] at hnil
    exact List.cons_ne_nil _ _ (List.append_eq_nil_iff.mp hnil).2
  cases call with
  | start => cases err <;> cases h <;> trivial
  | lock | closeLock =>
      simp only [Call.next, Option.ite_none_right_eq_some] at h
      cases h.2
      trivial
  | ensureStream retry =>
      rw [Call.next] at h
      split at h
      · cases h
        trivial
      · split at h
        · cases h
          trivial
        · cases h
        · split at h <;> cases h <;> trivial
  | opening retry =>
      simp only [Call.next] at h
      split at h <;> cases h <;> trivial
  | send retry =>
      simp only [Call.next] at h
      split at h <;> cases h
      · exact hrecord _
      · trivial
      · trivial
  | sendFailed =>
      rw [Call.next] at h
      split at h <;> cases h
      trivial
  | unlock err =>
      cases h
      cases err with
      | none => exact hsent
      | some err => trivial
  | closeSend stream cancel => cases stream <;> cases err <;> cases h <;> trivial
  | returned | closeReturned => cases h
  | _ =>
      cases h
      trivial

/-- An orderer on which every `Broadcast` that returned nil has sent its envelope. -/
structure SentInv (s : System) : Prop extends SystemInv s where
  sent : ∀ (i : ℕ) call, s.calls[i]? = some call → call.Sent s.client.log i

theorem init_sent : SentInv .init where
  toSystemInv := init_inv
  sent := nofun

theorem SentInv.step (h : SentInv s) (hstep : Step addr s a s') : SentInv s' := by
  have hlog := h.toSystemInv.log_step hstep
  refine ⟨h.toSystemInv.step hstep, fun i call hi => ?_⟩
  cases a with
  | broadcast | close =>
      cases hstep
      rcases getElem?_concat_eq_some.mp hi with hi | ⟨_, rfl⟩
      · exact h.sent i call hi
      · trivial
  | act j err =>
      obtain ⟨⟨o', call'⟩, hnext, rfl⟩ := Option.map_eq_some_iff.mp hstep
      obtain ⟨other, hj, hnext⟩ := Option.bind_eq_some_iff.mp hnext
      rcases (getElem?_set_eq_some hj).mp hi with ⟨rfl, rfl⟩ | ⟨_, hi⟩
      · exact next_sent (h.sent j other hj) hnext
      · exact (h.sent i call hi).mono hlog
  | exit stream =>
      rw [Step, System.step, Option.ite_none_right_eq_some] at hstep
      cases hstep.2
      exact (h.sent i call hi).mono hlog
  | ctxDone =>
      cases hstep
      exact h.sent i call hi

end Outcome

section Shut

variable {addr : Text} {s s' : System} {a : Label} {o o' : Client} {i n : ℕ} {err : Option Text}
  {call call' : Call}

/-- A call of `Broadcast` that can only fail, or a call of `Close`. -/
def Call.Refused : Call → Prop
  | .start | .lock | .ensureStream false | .unlock (some _) | .returned (some _) | .closeLock
  | .closeMark | .closeUnlock _ _ | .closeSend _ _ | .closeWait _ | .closeCancel _ | .closeConn
  | .closeReturned _ => True
  | _ => False

theorem next_refused (hclosed : o.closed = true) (hrefused : call.Refused)
    (h : Call.next addr i err o call = some (o', call')) : call'.Refused := by
  cases call with
  | start => cases err <;> cases h <;> trivial
  | lock | closeLock =>
      simp only [Call.next, Option.ite_none_right_eq_some] at h
      cases h.2
      trivial
  | ensureStream retry =>
      rw [Call.next, if_pos hclosed] at h
      cases h
      trivial
  | unlock err =>
      cases h
      cases err with
      | none => exact hrefused
      | some err => trivial
  | closeSend stream cancel => cases stream <;> cases err <;> cases h <;> trivial
  | returned | closeReturned => cases h
  | closeMark | closeUnlock | closeWait | closeCancel | closeConn =>
      cases h
      trivial
  | _ => exact absurd hrefused id

/-- On a closed client no action of a call opens a stream or sends. -/
theorem next_of_closed (hclosed : o.closed = true) (hok : call.Ok o i)
    (h : Call.next addr i err o call = some (o', call')) :
    ∃ added, o'.log = o.log ++ added ∧ ∀ e ∈ added, e.work = false := by
  have hsame : ∃ added, o.log = o.log ++ added ∧ ∀ e ∈ added, e.work = false :=
    ⟨[], (List.append_nil _).symm, nofun⟩
  have hcancel : ∀ ctx, ∃ added, (o.cancel ctx).log = o.log ++ added ∧
      ∀ e ∈ added, e.work = false := by
    intro ctx
    cases ctx with
    | none => exact hsame
    | some c => exact ⟨[.cancel c], rfl, by simp [Entry.work]⟩
  have hopen : o.closed = false → False := by
    rw [hclosed]
    exact nofun
  cases call with
  | start => cases err <;> cases h <;> exact hsame
  | lock | closeLock =>
      simp only [Call.next, Option.ite_none_right_eq_some] at h
      cases h.2
      exact hsame
  | ensureStream retry =>
      rw [Call.next, if_pos hclosed] at h
      cases h
      exact hsame
  | renew | create => exact absurd hok.2 (by simp [hclosed])
  | opening => exact absurd hok.1 hopen
  | openFailed err =>
      cases h
      exact hcancel _
  | send retry => cases retry <;> exact absurd hok.1 hopen
  | sendFailed => exact absurd hok.1 hopen
  | closeMark =>
      cases h
      exact ⟨[.closed], rfl, by simp [Entry.work]⟩
  | closeSend stream cancel => cases stream <;> cases err <;> cases h <;> exact hsame
  | closeCancel cancel =>
      cases h
      exact hcancel _
  | returned | closeReturned => cases h
  | _ =>
      cases h
      exact hsame

/-- An orderer that was closed with this log and `n` calls, and refuses the calls since. -/
structure Shut (log : List Entry) (n : ℕ) (s : System) : Prop extends SystemInv s where
  closed : s.client.closed = true
  log : ∃ added, s.client.log = log ++ added ∧ ∀ e ∈ added, e.work = false
  calls : n ≤ s.calls.length
  refused : ∀ i call, n ≤ i → s.calls[i]? = some call → call.Refused

/-- An orderer is shut when a `Close` has returned. -/
theorem SystemInv.shut (h : SystemInv s) (hi : s.calls[i]? = some (.closeReturned err)) :
    Shut s.client.log s.calls.length s where
  toSystemInv := h
  closed := (h.ok i _ hi).2.1
  log := ⟨[], (List.append_nil _).symm, nofun⟩
  calls := le_rfl
  refused := by
    intro j call hle hj
    rw [List.getElem?_eq_none hle] at hj
    cases hj

theorem Shut.cancels {log : List Entry} (h : Shut log n s) {o' : Client}
    (hc : Cancels s.client o') : Shut log n { s with client := o' } where
  toSystemInv := h.toSystemInv.cancels hc
  closed := hc.closed.trans h.closed
  log := by
    obtain ⟨added, hlog, hadded⟩ := h.log
    obtain ⟨added', hlog', hadded'⟩ := hc.log
    refine ⟨added ++ added', by rw [hlog', hlog, List.append_assoc], fun e he => ?_⟩
    rcases List.mem_append.mp he with he | he
    · exact hadded e he
    · obtain ⟨c, rfl⟩ := hadded' e he
      rfl
  calls := h.calls
  refused := h.refused

theorem Shut.enter {log : List Entry} (h : Shut log n s) {call : Call} (hrefused : call.Refused)
    (hinv : SystemInv { s with calls := s.calls ++ [call] }) :
    Shut log n { s with calls := s.calls ++ [call] } where
  toSystemInv := hinv
  closed := h.closed
  log := h.log
  calls := by
    rw [List.length_append]
    exact h.calls.trans (Nat.le_add_right ..)
  refused := by
    intro i call' hn hi
    rcases getElem?_concat_eq_some.mp hi with hi | ⟨_, rfl⟩
    · exact h.refused i call' hn hi
    · exact hrefused

theorem Shut.step {log : List Entry} (h : Shut log n s) (hstep : Step addr s a s') :
    Shut log n s' := by
  have hinv' := h.toSystemInv.step hstep
  cases a with
  | broadcast | close =>
      cases hstep
      exact h.enter trivial hinv'
  | act j err =>
      obtain ⟨⟨o', call'⟩, hnext, rfl⟩ := Option.map_eq_some_iff.mp hstep
      obtain ⟨call, hj, hnext⟩ := Option.bind_eq_some_iff.mp hnext
      have hok := h.ok j call hj
      have hgrows := (next_keeps h.client hok hnext).grows
      obtain ⟨added, hlog, hadded⟩ := h.log
      obtain ⟨added', hlog', hadded'⟩ := next_of_closed h.closed hok hnext
      refine ⟨hinv', (hgrows.closed h.closed).1, ⟨added ++ added', ?_, fun e he => ?_⟩,
        ?_, fun i other hn hi => ?_⟩
      · rw [hlog', hlog, List.append_assoc]
      · rcases List.mem_append.mp he with he | he
        · exact hadded e he
        · exact hadded' e he
      · rw [List.length_set]
        exact h.calls
      · rcases (getElem?_set_eq_some hj).mp hi with ⟨rfl, rfl⟩ | ⟨_, hi⟩
        · exact next_refused h.closed (h.refused j call hn hj) hnext
        · exact h.refused i other hn hi
  | exit stream =>
      rw [Step, System.step, Option.ite_none_right_eq_some] at hstep
      cases hstep.2
      exact h.cancels ⟨⟨[.cancel stream], rfl, by simp⟩, id, rfl, rfl, rfl, rfl, rfl⟩
  | ctxDone =>
      cases hstep
      exact h.cancels ⟨⟨[], by simp, by simp⟩, fun _ => rfl, rfl, rfl, rfl, rfl, rfl⟩

end Shut

end FabricXSdk.Network.Orderer
