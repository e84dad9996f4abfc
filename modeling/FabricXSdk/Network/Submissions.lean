import FabricXSdk.Network.Submitter

/-!
# What a submission has sent

Any number of `Submit` and `Close` calls on one submitter, the calls they make on the
orderers, the reply readers and all failures may be interleaved in any way. A `Submit` that
returns nil has put its envelope on the streams of at least half of the orderers, and on
each of them at most twice. After a `Close` nothing goes out any more, and `Submit` says so.
-/

namespace FabricXSdk.Network.Submitter

open Golang Transition
open Orderer (SentInv Shut sendsOf)

section Orderers

variable {cfg : Config} {s s' : System} {a : Label} {os os' : List Orderer.System}
  {task task' : Task} {err : Option Text} {i : ℕ}

/-- The steps of the orderers, each with its address. -/
def OrdererStep (cfg : Config) (i : ℕ) : Orderer.System → Orderer.Label → Orderer.System → Prop :=
  Orderer.Step (cfg.addr i)

/-- What an action of a task does to the orderers: nothing, or one call more. -/
theorem next_advances (h : task.next cfg err os = some (os', task')) :
    Advances (OrdererStep cfg) os os' := by
  cases task with
  | packageTx => cases err <;> cases h <;> exact .refl _
  | loop done errs =>
      rw [Task.next] at h
      split at h
      · rename_i o ho
        obtain ⟨o', hstep, h⟩ := Option.map_eq_some_iff.mp h
        cases h
        exact .set ho hstep
      · split at h
        · cases h
          exact .refl _
        · split at h <;> cases h <;> exact .refl _
  | broadcast done call errs =>
      rw [Task.next] at h
      split at h <;> cases h <;> exact .refl _
  | sleep done =>
      cases h
      exact .refl _
  | close calls =>
      obtain ⟨errs, _, h⟩ := Option.map_eq_some_iff.mp h
      cases h
      exact .refl _
  | returned | closeReturned => cases h

/-- The start of a goroutine is the start of a `Close` on an orderer. -/
theorem go_eq_some (h : task.go cfg i os = some (os', task')) :
    ∃ calls o o', task = .close calls ∧ os[i]? = some o ∧ OrdererStep cfg i o .close o' ∧
      os' = os.set i o' ∧ task' = .close (calls.set i (some o.calls.length)) := by
  cases task with
  | close calls =>
      rw [Task.go] at h
      split at h
      · rename_i o ho _
        obtain ⟨o', hstep, h⟩ := Option.map_eq_some_iff.mp h
        cases h
        exact ⟨calls, o, o', rfl, ho, hstep, rfl, rfl⟩
      · cases h
  | _ => cases h

theorem orderer_advances {b : Orderer.Label} (h : s.orderer cfg i b = some s') :
    Advances (OrdererStep cfg) s.orderers s'.orderers ∧ s'.tasks = s.tasks := by
  obtain ⟨o', hstep, rfl⟩ := Option.map_eq_some_iff.mp h
  obtain ⟨o, ho, hstep⟩ := Option.bind_eq_some_iff.mp hstep
  exact ⟨.set ho hstep, rfl⟩

/-- Every step of the submitter is made of steps of its orderers. -/
theorem step_advances (h : Step cfg s a s') :
    Advances (OrdererStep cfg) s.orderers s'.orderers := by
  cases a with
  | submit | close =>
      cases h
      exact .refl _
  | act k err =>
      obtain ⟨⟨os', task'⟩, hnext, rfl⟩ := Option.map_eq_some_iff.mp h
      obtain ⟨task, _, hnext⟩ := Option.bind_eq_some_iff.mp hnext
      exact next_advances hnext
  | go k i =>
      obtain ⟨⟨os', task'⟩, hgo, rfl⟩ := Option.map_eq_some_iff.mp h
      obtain ⟨task, _, hgo⟩ := Option.bind_eq_some_iff.mp hgo
      obtain ⟨calls, o, o', _, ho, hstep, rfl, _⟩ := go_eq_some hgo
      exact .set ho hstep
  | call i c err => exact (orderer_advances h).1
  | exit i stream => exact (orderer_advances h).1
  | ctxDone =>
      cases h
      exact .map fun i o _ => (rfl : Orderer.Step (cfg.addr i) o .ctxDone _)

theorem reaches_advances {Good : System → Label → Prop} (h : Reaches (Step cfg) Good s s') :
    Advances (OrdererStep cfg) s.orderers s'.orderers := by
  apply h.invariant
  · exact Advances.refl _
  · intro t a u hadv _ hstep
    exact hadv.trans (step_advances hstep)

/-- A call that has returned is found again. -/
theorem advances_finished (h : Advances (OrdererStep cfg) os os') {o : Orderer.System} {c : ℕ}
    {call : Orderer.Call} (hfinished : ∀ err o, Orderer.Call.next (cfg.addr i) c err o call = none)
    (ho : os[i]? = some o) (hc : o.calls[c]? = some call) :
    ∃ o', os'[i]? = some o' ∧ o'.calls[c]? = some call := by
  obtain ⟨o', ho', hreach⟩ := h.each i o ho
  refine ⟨o', ho', ?_⟩
  apply hreach.invariant
  · exact hc
  · intro s a t hinv _ hstep
    exact Orderer.step_of_finished hfinished hinv hstep

theorem advances_calls_length (h : Advances (OrdererStep cfg) os os') {o : Orderer.System}
    (ho : os[i]? = some o) : ∃ o', os'[i]? = some o' ∧ o.calls.length ≤ o'.calls.length := by
  obtain ⟨o', ho', hreach⟩ := h.each i o ho
  refine ⟨o', ho', ?_⟩
  apply hreach.invariant
  · exact le_rfl
  · intro s a t hinv _ hstep
    exact hinv.trans (Orderer.step_calls_length hstep)

end Orderers

section Tasks

variable {cfg : Config} {os os' : List Orderer.System} {done : List (ℕ × Option Text)}
  {task task' : Task} {err : Option Text}

/-- The results are those that the calls have returned. -/
def Answered (os : List Orderer.System) (done : List (ℕ × Option Text)) : Prop :=
  ∀ (i c : ℕ) r, done[i]? = some (c, r) → ∃ o, os[i]? = some o ∧ o.calls[c]? = some (.returned r)

/-- The orderers have all answered, and this is what follows for the submission. -/
structure Decided (os : List Orderer.System) (done : List (ℕ × Option Text)) (err : Option Text) :
    Prop where
  all : done.length = os.length
  answered : Answered os done
  verdict : err = if os.length < 2 * done.countP fun p => p.2.isSome then
    some [.lit "error broadcasting"] else none

/-- What a task knows at its place. -/
def Task.Ok (os : List Orderer.System) : Task → Prop
  | .packageTx => True
  | .loop done errs =>
      done.length ≤ os.length ∧ Answered os done ∧ errs = done.countP fun p => p.2.isSome
  | .broadcast done _ errs =>
      done.length < os.length ∧ Answered os done ∧ errs = done.countP fun p => p.2.isSome
  | .sleep done => Decided os done none
  | .returned done err =>
      done = [] ∧ (∃ e, err = some ([.lit "package proposal: "] ++ e)) ∨ Decided os done err
  | .close calls => calls.length = os.length
  | .closeReturned _ =>
      ∀ (i : ℕ) o, os[i]? = some o → ∃ (c : ℕ) (err : _), o.calls[c]? = some (.closeReturned err)

theorem Answered.advances (h : Answered os done) (hadv : Advances (OrdererStep cfg) os os') :
    Answered os' done := by
  intro i c r hi
  obtain ⟨o, ho, hc⟩ := h i c r hi
  exact advances_finished hadv (fun _ _ => rfl) ho hc

theorem Decided.advances (h : Decided os done err) (hadv : Advances (OrdererStep cfg) os os') :
    Decided os' done err := by
  refine ⟨h.all.trans hadv.length.symm, h.answered.advances hadv, ?_⟩
  rw [hadv.length]
  exact h.verdict

/-- What a task knows stays true while the orderers go on. -/
theorem Task.Ok.advances (h : task.Ok os) (hadv : Advances (OrdererStep cfg) os os') :
    task.Ok os' := by
  cases task with
  | packageTx => trivial
  | loop done errs | broadcast done call errs =>
      obtain ⟨hle, hanswered, herrs⟩ := h
      rw [← hadv.length] at hle
      exact ⟨hle, hanswered.advances hadv, herrs⟩
  | sleep done => exact Decided.advances h hadv
  | returned done err => exact h.imp id fun h => h.advances hadv
  | close calls => exact h.trans hadv.length.symm
  | closeReturned err =>
      intro i o' ho'
      obtain ⟨o, ho, _⟩ := hadv.source ho'
      obtain ⟨c, err, hc⟩ := h i o ho
      obtain ⟨o₁, ho₁, hc⟩ := advances_finished hadv (fun _ _ => rfl) ho hc
      obtain rfl := Option.some.inj (ho₁.symm.trans ho')
      exact ⟨c, err, hc⟩

/-- The next answer. -/
theorem Answered.snoc (h : Answered os done) {o : Orderer.System} {c : ℕ} {r : Option Text}
    (ho : os[done.length]? = some o) (hc : o.calls[c]? = some (.returned r)) :
    Answered os (done ++ [(c, r)]) := by
  intro i c' r' hi
  rcases getElem?_concat_eq_some.mp hi with hi | ⟨rfl, hp⟩
  · exact h i c' r' hi
  · cases hp
    exact ⟨o, ho, hc⟩

/-- The end of the loop: the answers are all there. -/
theorem ok_loop_end {errs : ℕ} (h : (Task.loop done errs).Ok os) (hend : os[done.length]? = none) :
    Decided os done (if os.length < errs * 2 then some [.lit "error broadcasting"] else none) := by
  obtain ⟨hle, hanswered, rfl⟩ := h
  rw [List.getElem?_eq_none_iff] at hend
  refine ⟨le_antisymm hle hend, hanswered, ?_⟩
  rw [Nat.mul_comm]

/-- `wg.Wait` returns once every orderer has answered its `Close`. -/
theorem closeResults_eq_some {calls : List (Option ℕ)} {errs : List (Option Text)}
    (hlength : calls.length = os.length)
    (h : (os.zip calls).mapM (fun p => closeResult p.1 p.2) = some errs) (i : ℕ)
    (o : Orderer.System) (ho : os[i]? = some o) :
    ∃ (c : ℕ) (err : _), o.calls[c]? = some (.closeReturned err) := by
  have hlt : i < calls.length := hlength ▸ (List.getElem?_eq_some_iff.mp ho).choose
  have hmem : (o, calls[i]) ∈ os.zip calls := by
    refine List.mem_iff_getElem?.mpr ⟨i, ?_⟩
    rw [List.getElem?_zip_eq_some]
    exact ⟨ho, List.getElem?_eq_getElem hlt⟩
  obtain ⟨err, hresult⟩ := exists_of_mapM_eq_some h hmem
  simp only [closeResult] at hresult
  split at hresult
  · rename_i err' hcall
    obtain ⟨c, _, hc⟩ := Option.bind_eq_some_iff.mp hcall
    exact ⟨c, err', hc⟩
  · cases hresult

theorem next_ok (hok : task.Ok os) (h : task.next cfg err os = some (os', task')) :
    task'.Ok os' := by
  have hadv := next_advances h
  cases task with
  | packageTx =>
      cases err with
      | some err =>
          cases h
          exact Or.inl ⟨rfl, err, rfl⟩
      | none =>
          cases h
          exact ⟨Nat.zero_le _, nofun, rfl⟩
  | loop done errs =>
      rw [Task.next] at h
      split at h
      · rename_i o ho
        obtain ⟨o', _, h⟩ := Option.map_eq_some_iff.mp h
        cases h
        have hok' : (Task.broadcast done o.calls.length errs).Ok os :=
          ⟨(List.getElem?_eq_some_iff.mp ho).choose, hok.2⟩
        exact hok'.advances hadv
      · rename_i hend
        have hdecided := ok_loop_end hok hend
        split at h
        · rename_i hmany
          rw [if_pos hmany] at hdecided
          cases h
          exact Or.inr hdecided
        · rename_i hfew
          rw [if_neg hfew] at hdecided
          split at h <;> cases h
          · exact hdecided
          · exact Or.inr hdecided
  | broadcast done call errs =>
      obtain ⟨hlt, hanswered, rfl⟩ := hok
      rw [Task.next] at h
      split at h
      all_goals cases h
      · rename_i err hcall
        obtain ⟨o, ho, hc⟩ := Option.bind_eq_some_iff.mp hcall
        refine ⟨?_, hanswered.snoc ho hc, ?_⟩
        · rw [List.length_append]
          exact hlt
        · rw [List.countP_append]
          rfl
      · rename_i hcall
        obtain ⟨o, ho, hc⟩ := Option.bind_eq_some_iff.mp hcall
        refine ⟨?_, hanswered.snoc ho hc, ?_⟩
        · rw [List.length_append]
          exact hlt
        · rw [List.countP_append]
          rfl
  | sleep done =>
      cases h
      exact Or.inr hok
  | close calls =>
      obtain ⟨errs, herrs, h⟩ := Option.map_eq_some_iff.mp h
      cases h
      exact closeResults_eq_some hok herrs
  | returned | closeReturned => cases h

/-- The calls of a task are those it had, or the one it has just made. -/
theorem next_callOn (h : task.next cfg err os = some (os', task')) {i c : ℕ}
    (hc : task'.callOn i = some c) : task.callOn i = some c ∨ ∃ o o', os[i]? = some o ∧
      os'[i]? = some o' ∧ c = o.calls.length ∧ o'.calls.length = c + 1 := by
  cases task with
  | packageTx => cases err <;> cases h <;> cases hc
  | loop done errs =>
      rw [Task.next] at h
      split at h
      · rename_i o ho
        obtain ⟨o', hstep, h⟩ := Option.map_eq_some_iff.mp h
        cases hstep
        cases h
        rcases getElem?_concat_eq_some.mp hc with hc | ⟨rfl, rfl⟩
        · exact Or.inl hc
        · rw [List.length_map]
          exact Or.inr ⟨o, _, ho, getElem?_set_of_some ho _, rfl, List.length_append ..⟩
      · split at h
        · cases h
          exact Or.inl hc
        · split at h <;> cases h <;> exact Or.inl hc
  | broadcast done call errs =>
      rw [Task.next] at h
      split at h <;> cases h
      all_goals
        rw [Task.callOn, List.map_append] at hc
        exact Or.inl hc
  | sleep done =>
      cases h
      exact Or.inl hc
  | close calls =>
      obtain ⟨errs, _, h⟩ := Option.map_eq_some_iff.mp h
      cases h
      cases hc
  | returned | closeReturned => cases h

end Tasks

section Runs

variable {cfg : Config} {s s' t : System} {a : Label} {n k : ℕ} {os' : List Orderer.System}
  {task task' : Task}

structure SystemInv (s : System) : Prop where
  orderers : ∀ (i : ℕ) o, s.orderers[i]? = some o → SentInv o
  ok : ∀ (k : ℕ) task, s.tasks[k]? = some task → task.Ok s.orderers
  /-- The calls of a task are on the orderers. -/
  known : ∀ (k : ℕ) task, s.tasks[k]? = some task → ∀ i c, task.callOn i = some c →
    ∃ o, s.orderers[i]? = some o ∧ c < o.calls.length
  own : ∀ (k k' : ℕ) task task', s.tasks[k]? = some task → s.tasks[k']? = some task' → k ≠ k' →
    ∀ i c, task.callOn i = some c → task'.callOn i ≠ some c

theorem init_inv (n : ℕ) : SystemInv (.init n) where
  orderers := by
    intro i o ho
    rw [List.eq_of_mem_replicate (List.mem_of_getElem? ho)]
    exact Orderer.init_sent
  ok := nofun
  known := nofun
  own := nofun

theorem SystemInv.sentInv (h : SystemInv s) (hadv : Advances (OrdererStep cfg) s.orderers os')
    (i : ℕ) (o : Orderer.System) (ho : os'[i]? = some o) : SentInv o := by
  obtain ⟨o₀, ho₀, hreach⟩ := hadv.source ho
  exact hreach.invariant (h.orderers i o₀ ho₀) fun _ _ _ hinv _ hstep => hinv.step hstep

theorem SystemInv.known_advances (h : SystemInv s)
    (hadv : Advances (OrdererStep cfg) s.orderers os') (hk : s.tasks[k]? = some task) {i c : ℕ}
    (hc : task.callOn i = some c) : ∃ o, os'[i]? = some o ∧ c < o.calls.length := by
  obtain ⟨o, ho, hlt⟩ := h.known k task hk i c hc
  obtain ⟨o', ho', hle⟩ := advances_calls_length hadv ho
  exact ⟨o', ho', hlt.trans_le hle⟩

/-- The orderers go on by themselves. -/
theorem SystemInv.advance (h : SystemInv s) (hadv : Advances (OrdererStep cfg) s.orderers os') :
    SystemInv { s with orderers := os' } where
  orderers := h.sentInv hadv
  ok := fun k task hk => (h.ok k task hk).advances hadv
  known := fun _ _ hk _ _ hc => h.known_advances hadv hk hc
  own := h.own

/-- A task that has made no call yet comes in. -/
theorem SystemInv.enter (h : SystemInv s) (hok : task.Ok s.orderers)
    (hcalls : ∀ i, task.callOn i = none) : SystemInv { s with tasks := s.tasks ++ [task] } := by
  refine ⟨h.orderers, fun k t hk => ?_, fun k t hk i c hc => ?_,
    fun k k' t t' hk hk' hne i c hc hc' => ?_⟩
  · rcases getElem?_concat_eq_some.mp hk with hk | ⟨_, rfl⟩
    · exact h.ok k t hk
    · exact hok
  · rcases getElem?_concat_eq_some.mp hk with hk | ⟨_, rfl⟩
    · exact h.known k t hk i c hc
    · rw [hcalls] at hc
      cases hc
  · rcases getElem?_concat_eq_some.mp hk with hk | ⟨_, rfl⟩
    · rcases getElem?_concat_eq_some.mp hk' with hk' | ⟨_, rfl⟩
      · exact h.own k k' t t' hk hk' hne i c hc hc'
      · rw [hcalls] at hc'
        cases hc'
    · rw [hcalls] at hc
      cases hc

/-- A task acts, and makes at most one call more, with a number of its own. -/
theorem SystemInv.update (h : SystemInv s) (hadv : Advances (OrdererStep cfg) s.orderers os')
    (hk : s.tasks[k]? = some task) (hok : task'.Ok os')
    (hcalls : ∀ i c, task'.callOn i = some c → task.callOn i = some c ∨
      ∃ o o', s.orderers[i]? = some o ∧ os'[i]? = some o' ∧ c = o.calls.length ∧
        o'.calls.length = c + 1) : SystemInv ⟨os', s.tasks.set k task'⟩ := by
  -- a call of another task is not the new one
  have hother : ∀ (j : ℕ) t, j ≠ k → s.tasks[j]? = some t → ∀ i c, task'.callOn i = some c →
      t.callOn i ≠ some c := by
    intro j t hne hj i c hc ht
    rcases hcalls i c hc with hc | ⟨o, _, ho, _, rfl, _⟩
    · exact h.own k j task t hk hj hne.symm i c hc ht
    · obtain ⟨o₁, ho₁, hlt⟩ := h.known j t hj i _ ht
      obtain rfl := Option.some.inj (ho₁.symm.trans ho)
      exact lt_irrefl _ hlt
  refine ⟨h.sentInv hadv, fun j t hj => ?_, fun j t hj i c hc => ?_,
    fun j j' t t' hj hj' hne i c hc hc' => ?_⟩
  · rcases (getElem?_set_eq_some hk).mp hj with ⟨_, rfl⟩ | ⟨_, hj⟩
    · exact hok
    · exact (h.ok j t hj).advances hadv
  · rcases (getElem?_set_eq_some hk).mp hj with ⟨_, rfl⟩ | ⟨_, hj⟩
    · rcases hcalls i c hc with hc | ⟨_, o', _, ho', _, hlength⟩
      · exact h.known_advances hadv hk hc
      · exact ⟨o', ho', hlength ▸ Nat.lt_succ_self c⟩
    · exact h.known_advances hadv hj hc
  · rcases (getElem?_set_eq_some hk).mp hj with ⟨rfl, rfl⟩ | ⟨hjk, hj⟩
    · rcases (getElem?_set_eq_some hk).mp hj' with ⟨rfl, _⟩ | ⟨hjk', hj'⟩
      · exact hne rfl
      · exact hother j' t' hjk'.symm hj' i c hc hc'
    · rcases (getElem?_set_eq_some hk).mp hj' with ⟨rfl, rfl⟩ | ⟨_, hj'⟩
      · exact hother j t hjk.symm hj i c hc' hc
      · exact h.own j j' t t' hj hj' hne i c hc hc'

theorem SystemInv.step (h : SystemInv s) (hstep : Step cfg s a s') : SystemInv s' := by
  have hadv := step_advances hstep
  cases a with
  | submit =>
      cases hstep
      exact h.enter trivial fun _ => rfl
  | close =>
      cases hstep
      exact h.enter (List.length_map ..) fun _ => rfl
  | act k err =>
      obtain ⟨⟨os', task'⟩, hnext, rfl⟩ := Option.map_eq_some_iff.mp hstep
      obtain ⟨task, hk, hnext⟩ := Option.bind_eq_some_iff.mp hnext
      exact h.update hadv hk (next_ok (h.ok k task hk) hnext) fun i c hc => next_callOn hnext hc
  | go k i =>
      obtain ⟨⟨os', task'⟩, hgo, rfl⟩ := Option.map_eq_some_iff.mp hstep
      obtain ⟨task, hk, hgo⟩ := Option.bind_eq_some_iff.mp hgo
      obtain ⟨calls, o, o', rfl, _, _, rfl, rfl⟩ := go_eq_some hgo
      refine h.update hadv hk ?_ fun i c hc => Or.inl hc
      have hlength : calls.length = s.orderers.length := h.ok k _ hk
      simpa only [Task.Ok, List.length_set] using hlength
  | call i c err =>
      obtain ⟨_, htasks⟩ := orderer_advances hstep
      obtain ⟨os', tasks'⟩ := s'
      cases htasks
      exact h.advance hadv
  | exit i stream =>
      obtain ⟨_, htasks⟩ := orderer_advances hstep
      obtain ⟨os', tasks'⟩ := s'
      cases htasks
      exact h.advance hadv
  | ctxDone =>
      cases hstep
      exact h.advance hadv

theorem inv_of_reaches (h : Reaches (Step cfg) Free (.init n) s) : SystemInv s :=
  h.invariant (init_inv n) fun _ _ _ hinv _ hstep => hinv.step hstep

/-- A result is an error or it is not. -/
theorem countP_isSome_add_isNone (done : List (ℕ × Option Text)) :
    (done.countP fun p => p.2.isSome) + (done.countP fun p => p.2.isNone) = done.length := by
  rw [List.length_eq_countP_add_countP (fun p : ℕ × Option Text => p.2.isSome)]
  congr 2
  funext p
  cases p.2 <;> rfl

/-- Whatever else goes on, a `Submit` returns nil only if at least half of the orderers were
sent the envelope, and an error only if more than half of them were not reached. -/
theorem submit_reaches_half (h : Reaches (Step cfg) Free (.init n) s)
    {done : List (ℕ × Option Text)} {err : Option Text}
    (hk : s.tasks[k]? = some (.returned done err)) :
    done = [] ∧ (∃ e, err = some ([.lit "package proposal: "] ++ e)) ∨ Submitted s k done err := by
  have hinv := inv_of_reaches h
  refine (hinv.ok k _ hk).imp id fun hdecided => ⟨hdecided.all, ?_, ?_, hdecided.verdict, ?_⟩
  · intro i c r hi
    obtain ⟨o, ho, hc⟩ := hdecided.answered i c r hi
    have hsent := hinv.orderers i o ho
    refine ⟨o, ho, hc, (hsent.ok c _ hc).atMostTwice, ?_⟩
    rintro rfl
    exact hsent.sent c _ hc
  · intro k' task' hk' hne i p hi
    refine hinv.own k k' _ task' hk hk' hne.symm i p.1 ?_
    rw [Task.callOn, List.getElem?_map, hi]
    rfl
  · intro hnil
    have hverdict := hdecided.verdict
    rw [hnil] at hverdict
    split at hverdict
    · cases hverdict
    · rename_i hfew
      have hcount := countP_isSome_add_isNone done
      rw [hdecided.all] at hcount
      omega

/-- A submission to two orderers, of which the second does not get it: the context of the
caller is done by then. -/
def sampleSubmit : List Label :=
  [Label.submit, Label.act 0 none, Label.act 0 none] ++ List.replicate 8 (Label.call 0 0 none) ++
    [Label.act 0 none, Label.act 0 none, Label.call 1 0 (some []), Label.act 0 none,
      Label.act 0 none]

def sampleConfig : Config := ⟨fun _ => [], 0⟩

theorem submit_reaches_half_sample :
    ∃ s, sampleSubmit.foldlM (System.step sampleConfig) (.init 2) = some s ∧
      s.tasks[0]? = some (.returned [(0, none), (0, some [])] none) ∧
      Submitted s 0 [(0, none), (0, some [])] none := by
  have hrun : (sampleSubmit.foldlM (System.step sampleConfig) (.init 2)).map (fun s =>
      s.tasks[0]?) = some (some (.returned [(0, none), (0, some [])] none)) := by
    rfl
  obtain ⟨s, hs, htask⟩ := Option.map_eq_some_iff.mp hrun
  rcases submit_reaches_half (Reaches.of_foldlM sampleSubmit hs) htask with ⟨h, _⟩ | h
  · cases h
  · exact ⟨s, hs, htask, h⟩

end Runs

section Closed

variable {cfg : Config} {s t u : System} {a : Label} {n k : ℕ} {task task' : Task}
  {err : Option Text}

/-- Since the state `s`, in which a `Close` had returned, nothing has been sent, and every
`Submit` that was called since then has failed. -/
structure Silent (s t : System) : Prop where
  quiet : ∀ (i : ℕ) o, s.orderers[i]? = some o → ∃ o', t.orderers[i]? = some o' ∧
    (∀ c < o'.client.contexts, o'.client.Cancelled c) ∧
      ∃ added, o'.client.log = o.client.log ++ added ∧ ∀ e ∈ added, e.work = false
  refused : ∀ (k : ℕ) done err, s.tasks.length ≤ k →
    t.tasks[k]? = some (.returned done err) → err ≠ none

/-- A task that began when the orderers were closed, with the calls of the state `s`. -/
def Task.Late (s : System) : Task → Prop
  | .loop done _ => ∀ p ∈ done, p.2.isSome = true
  | .broadcast done call _ => (∀ p ∈ done, p.2.isSome = true) ∧
      ∀ o, s.orderers[done.length]? = some o → o.calls.length ≤ call
  | .sleep _ => False
  | .returned _ err => err ≠ none
  | .packageTx | .close _ | .closeReturned _ => True

/-- The tasks since the state `s` are late. -/
structure AllLate (s : System) (tasks : List Task) : Prop where
  count : s.tasks.length ≤ tasks.length
  late : ∀ (k : ℕ) task, s.tasks.length ≤ k → tasks[k]? = some task → task.Late s

theorem AllLate.concat {tasks : List Task} (h : AllLate s tasks) (htask : task.Late s) :
    AllLate s (tasks ++ [task]) where
  count := by
    rw [List.length_append]
    exact h.count.trans (Nat.le_add_right ..)
  late := by
    intro k task' hle hk
    rcases getElem?_concat_eq_some.mp hk with hk | ⟨_, rfl⟩
    · exact h.late k task' hle hk
    · exact htask

theorem AllLate.set {tasks : List Task} (h : AllLate s tasks) (hk : tasks[k]? = some task)
    (htask : task.Late s → task'.Late s) : AllLate s (tasks.set k task') where
  count := by
    rw [List.length_set]
    exact h.count
  late := by
    intro j other hle hj
    rcases (getElem?_set_eq_some hk).mp hj with ⟨rfl, rfl⟩ | ⟨_, hj⟩
    · exact htask (h.late k task hle hk)
    · exact h.late j other hle hj

structure ClosedInv (s t : System) : Prop extends SystemInv t where
  length : t.orderers.length = s.orderers.length
  shut : ∀ (i : ℕ) o o', s.orderers[i]? = some o → t.orderers[i]? = some o' →
    Shut o.client.log o.calls.length o'
  tasks : AllLate s t.tasks

/-- Every answer that a late task gets is an error. -/
theorem ClosedInv.answer (h : ClosedInv s t) {i c : ℕ} {o' : Orderer.System} {r : Option Text}
    (ho' : t.orderers[i]? = some o') (hc : o'.calls[c]? = some (.returned r))
    (hlate : ∀ o, s.orderers[i]? = some o → o.calls.length ≤ c) : r.isSome = true := by
  have hlt : i < s.orderers.length := h.length ▸ (List.getElem?_eq_some_iff.mp ho').choose
  have ho := List.getElem?_eq_getElem hlt
  have hrefused := (h.shut i _ o' ho ho').refused c _ (hlate _ ho) hc
  cases r with
  | none => exact absurd hrefused id
  | some err => rfl

theorem ClosedInv.next (h : ClosedInv s t) (hn : 0 < s.orderers.length)
    (hk : t.tasks[k]? = some task) (hlate : task.Late s) {os' : List Orderer.System}
    (hnext : task.next cfg err t.orderers = some (os', task')) : task'.Late s := by
  have hok := h.ok k task hk
  cases task with
  | packageTx =>
      cases err with
      | some err =>
          cases hnext
          exact Option.some_ne_none _
      | none =>
          cases hnext
          exact nofun
  | loop done errs =>
      rw [Task.next] at hnext
      split at hnext
      · rename_i o' ho'
        obtain ⟨o₁, _, hnext⟩ := Option.map_eq_some_iff.mp hnext
        cases hnext
        refine ⟨hlate, fun o ho => ?_⟩
        exact (h.shut _ o o' ho ho').calls
      · rename_i hend
        -- every orderer has failed, and there is one
        have hall : (done.countP fun p => p.2.isSome) = t.orderers.length := by
          rw [← (ok_loop_end hok hend).all, List.countP_eq_length]
          exact hlate
        have hmany : t.orderers.length < errs * 2 := by
          rw [hok.2.2, hall, h.length]
          omega
        rw [if_pos hmany] at hnext
        cases hnext
        exact Option.some_ne_none _
  | broadcast done call errs =>
      obtain ⟨hdone, hcall⟩ := hlate
      rw [Task.next] at hnext
      split at hnext
      · rename_i err hreturned
        cases hnext
        intro p hp
        rcases List.mem_append.mp hp with hp | hp
        · exact hdone p hp
        · rw [List.mem_singleton.mp hp]
          rfl
      · rename_i hreturned
        obtain ⟨o', ho', hc⟩ := Option.bind_eq_some_iff.mp hreturned
        exact absurd (h.answer ho' hc hcall) nofun
      · cases hnext
  | sleep done => exact absurd hlate id
  | close calls =>
      obtain ⟨errs, _, hnext⟩ := Option.map_eq_some_iff.mp hnext
      cases hnext
      trivial
  | returned | closeReturned => cases hnext

theorem ClosedInv.late_step (h : ClosedInv s t) (hn : 0 < s.orderers.length)
    (hstep : Step cfg t a u) : AllLate s u.tasks := by
  cases a with
  | submit =>
      cases hstep
      exact h.tasks.concat trivial
  | close =>
      cases hstep
      exact h.tasks.concat trivial
  | act k err =>
      obtain ⟨⟨os', task'⟩, hnext, rfl⟩ := Option.map_eq_some_iff.mp hstep
      obtain ⟨task, hk, hnext⟩ := Option.bind_eq_some_iff.mp hnext
      exact h.tasks.set hk fun hlate => h.next hn hk hlate hnext
  | go k i =>
      obtain ⟨⟨os', task'⟩, hgo, rfl⟩ := Option.map_eq_some_iff.mp hstep
      obtain ⟨task, hk, hgo⟩ := Option.bind_eq_some_iff.mp hgo
      obtain ⟨calls, o, o', rfl, _, _, _, rfl⟩ := go_eq_some hgo
      exact h.tasks.set hk id
  | call i c err =>
      rw [(orderer_advances hstep).2]
      exact h.tasks
  | exit i stream =>
      rw [(orderer_advances hstep).2]
      exact h.tasks
  | ctxDone =>
      cases hstep
      exact h.tasks

theorem ClosedInv.step (h : ClosedInv s t) (hn : 0 < s.orderers.length)
    (hstep : Step cfg t a u) : ClosedInv s u := by
  have hadv := step_advances hstep
  refine ⟨h.toSystemInv.step hstep, hadv.length.trans h.length, fun i o o' ho ho' => ?_,
    h.late_step hn hstep⟩
  obtain ⟨o₁, ho₁, hreach⟩ := hadv.source ho'
  exact hreach.invariant (h.shut i o o₁ ho ho₁) fun _ _ _ hinv _ hstep => hinv.step hstep

/-- Once a `Close` of the submitter has returned, no orderer is sent anything and no stream
to one is alive, and every later `Submit` returns an error. -/
theorem closed_submitter_silent (hn : 0 < n) (h : Reaches (Step cfg) Free (.init n) s)
    (hk : s.tasks[k]? = some (.closeReturned err)) (h' : Reaches (Step cfg) Free s t) :
    Silent s t := by
  have hinv := inv_of_reaches h
  have hclosed := hinv.ok k _ hk
  have hlength : 0 < s.orderers.length := by
    rw [(reaches_advances h).length, System.init, List.length_replicate]
    exact hn
  have hstart : ClosedInv s s := by
    refine ⟨hinv, rfl, fun i o o' ho ho' => ?_, le_rfl, fun k task hle hk => ?_⟩
    · obtain rfl := Option.some.inj (ho.symm.trans ho')
      obtain ⟨c, err, hc⟩ := hclosed i o ho
      exact (hinv.orderers i o ho).toSystemInv.shut hc
    · rw [List.getElem?_eq_none hle] at hk
      cases hk
  have hend : ClosedInv s t :=
    h'.invariant hstart fun _ _ _ hu _ hstep => hu.step hlength hstep
  refine ⟨fun i o ho => ?_, fun k done err hle hk => hend.tasks.late k _ hle hk⟩
  obtain ⟨c, err, hc⟩ := hclosed i o ho
  obtain ⟨o', ho', hc'⟩ := advances_finished (reaches_advances h') (fun _ _ => rfl) ho hc
  have hshut := hend.shut i o o' ho ho'
  exact ⟨o', ho', (hshut.ok c _ hc').2.2, hshut.log⟩

/-- After the submission a `Close`, whose goroutines start in the reverse order, and another
submission. -/
def sampleClose : List Label :=
  [Label.close, Label.go 1 1, Label.go 1 0] ++ List.replicate 7 (Label.call 0 1 none) ++
    List.replicate 6 (Label.call 1 1 none) ++ [Label.act 1 none]

def sampleLate : List Label :=
  [Label.submit, Label.act 2 none, Label.act 2 none] ++ List.replicate 4 (Label.call 0 2 none) ++
    [Label.act 2 none, Label.act 2 none] ++ List.replicate 4 (Label.call 1 2 none) ++
    [Label.act 2 none, Label.act 2 none]

theorem closed_submitter_silent_sample :
    ∃ s t, (sampleSubmit ++ sampleClose).foldlM (System.step sampleConfig) (.init 2) = some s ∧
      s.tasks[1]? = some (.closeReturned none) ∧
      sampleLate.foldlM (System.step sampleConfig) s = some t ∧ t.tasks.length = 3 ∧
      Silent s t := by
  have hrun : ((sampleSubmit ++ sampleClose).foldlM (System.step sampleConfig) (.init 2)).map
      (fun s => (s.tasks[1]?,
        (sampleLate.foldlM (System.step sampleConfig) s).map fun t => t.tasks.length)) =
      some (some (.closeReturned none), some 3) := by
    rfl
  obtain ⟨s, hs, hpair⟩ := Option.map_eq_some_iff.mp hrun
  obtain ⟨hclosed, hlate⟩ := Prod.mk.inj hpair
  obtain ⟨t, ht, hlength⟩ := Option.map_eq_some_iff.mp hlate
  exact ⟨s, t, hs, hclosed, ht, hlength, closed_submitter_silent (by decide)
    (Reaches.of_foldlM _ hs) hclosed (Reaches.of_foldlM _ ht)⟩

end Closed

end FabricXSdk.Network.Submitter
