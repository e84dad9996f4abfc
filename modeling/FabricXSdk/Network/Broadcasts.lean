import FabricXSdk.Network.OrdererCalls

/-!
# One broadcast stream at a time

Calls of `Broadcast` and `Close`, the reply readers and the context of the client may be
interleaved in any way, and opening and sending may fail at any time. There is at most one
stream whose context is alive, an envelope is sent again only on a stream that replaces a
cancelled one, and `Close` leaves nothing open.
-/

namespace FabricXSdk.Network.Orderer

open Golang Transition

section Runs

variable {addr : Text} {s s' : System}

structure SystemInv (s : System) : Prop where
  client : ClientInv s.client
  /-- The mutex has one holder. -/
  holds : ∀ (i : ℕ) call, s.calls[i]? = some call → call.Holds → s.client.mu = some i
  ok : ∀ (i : ℕ) call, s.calls[i]? = some call → call.Ok s.client i
  fresh : ∀ i, s.calls.length ≤ i → sendsOf i s.client.log = []

theorem init_inv : SystemInv .init where
  client := ⟨nofun, nofun, nofun, nofun, by
    intro pre post h
    cases pre <;> cases h⟩
  holds := nofun
  ok := nofun
  fresh := fun _ _ => rfl

/-- A new call has sent nothing and does not hold the mutex. -/
theorem SystemInv.enter (h : SystemInv s) {call : Call} (hholds : ¬ call.Holds)
    (hok : sendsOf s.calls.length s.client.log = [] → call.Ok s.client s.calls.length) :
    SystemInv { s with calls := s.calls ++ [call] } := by
  refine ⟨h.client, fun i call' hi hcall' => ?_, fun i call' hi => ?_, fun i hi => ?_⟩
  · rcases getElem?_concat_eq_some.mp hi with hi | ⟨_, rfl⟩
    · exact h.holds i call' hi hcall'
    · exact absurd hcall' hholds
  · rcases getElem?_concat_eq_some.mp hi with hi | ⟨rfl, rfl⟩
    · exact h.ok i call' hi
    · exact hok (h.fresh _ le_rfl)
  · rw [List.length_append] at hi
    exact h.fresh i (le_trans (Nat.le_add_right ..) hi)

/-- Cancellations from outside the calls. -/
theorem SystemInv.cancels (h : SystemInv s) {o' : Client} (hc : Cancels s.client o') :
    SystemInv { s with client := o' } where
  client := hc.inv h.client
  holds := by
    intro i call hi hcall
    exact hc.mu.trans (h.holds i call hi hcall)
  ok := fun i call hi => hc.ok (h.ok i call hi)
  fresh := fun i hi => hc.sendsOf.trans (h.fresh i hi)

theorem SystemInv.act (h : SystemInv s) {i : ℕ} {err : Option Text} {call call' : Call}
    {o' : Client} (hi : s.calls[i]? = some call)
    (hnext : Call.next addr i err s.client call = some (o', call')) :
    SystemInv ⟨o', s.calls.set i call'⟩ := by
  obtain ⟨hinv', hok', hgrows⟩ := next_keeps h.client (h.ok i call hi) hnext
  -- another call that holds the mutex keeps the acting one out of it
  have haside : ∀ (j : ℕ) other, i ≠ j → s.calls[j]? = some other → other.Holds →
      Cancels s.client o' := by
    intro j other hne hj hother
    have hmu := h.holds j other hj hother
    refine next_aside (fun hcall => ?_) (by rw [hmu]; exact Option.some_ne_none j) hnext
    have hmu' := h.holds i call hi hcall
    rw [hmu] at hmu'
    exact hne (Option.some.inj hmu').symm
  refine ⟨hinv', fun j other hj hother => ?_, fun j other hj => ?_, fun j hj => ?_⟩
  · rcases (getElem?_set_eq_some hi).mp hj with ⟨rfl, rfl⟩ | ⟨hne, hj⟩
    · exact next_mu hother (h.holds i call hi) hnext
    · exact (haside j other hne hj hother).mu.trans (h.holds j other hj hother)
  · rcases (getElem?_set_eq_some hi).mp hj with ⟨rfl, rfl⟩ | ⟨hne, hj⟩
    · exact hok'
    · by_cases hother : other.Holds
      · exact (haside j other hne hj hother).ok (h.ok j other hj)
      · exact hgrows.ok hne.symm hother (h.ok j other hj)
  · rw [List.length_set] at hj
    have hlt : i < s.calls.length := (List.getElem?_eq_some_iff.mp hi).choose
    obtain ⟨added, hlog, hadded⟩ := hgrows.log
    rw [hlog, sendsOf_append, hadded j (by omega), h.fresh j hj]
    rfl

theorem SystemInv.step {a : Label} (h : SystemInv s) (hstep : Step addr s a s') :
    SystemInv s' := by
  cases a with
  | broadcast =>
      cases hstep
      exact h.enter id id
  | close =>
      cases hstep
      exact h.enter id id
  | act i err =>
      obtain ⟨⟨o', call'⟩, hnext, rfl⟩ := Option.map_eq_some_iff.mp hstep
      obtain ⟨call, hi, hnext⟩ := Option.bind_eq_some_iff.mp hnext
      exact h.act hi hnext
  | exit stream =>
      rw [Step, System.step, Option.ite_none_right_eq_some] at hstep
      cases hstep.2
      exact h.cancels ⟨⟨[.cancel stream], rfl, by simp⟩, id, rfl, rfl, rfl, rfl, rfl⟩
  | ctxDone =>
      cases hstep
      exact h.cancels ⟨⟨[], by simp, by simp⟩, fun _ => rfl, rfl, rfl, rfl, rfl, rfl⟩

/-- A run never gets stuck while a call holds the mutex. -/
theorem holder_never_stuck (h : Reaches (Step addr) Free .init s) {i : ℕ} {call : Call}
    (hi : s.calls[i]? = some call) (hholds : call.Holds) (err : Option Text) :
    ∃ s', Step addr s (.act i err) s' := by
  have hinv : SystemInv s := h.invariant init_inv fun _ _ _ hinv _ hstep => hinv.step hstep
  obtain ⟨next, hnext⟩ := holder_goesOn hinv.client (hinv.ok i call hi) hholds
  refine ⟨⟨next.1, s.calls.set i next.2⟩, ?_⟩
  rw [Step, System.step, hi, Option.bind_some, hnext]
  rfl

theorem Call.Ok.atMostTwice {o : Client} {i : ℕ} {call : Call} (h : call.Ok o i) :
    AtMostTwice o.log i := by
  cases call with
  | start | lock | closeLock | closeMark => exact Or.inl h
  | ensureStream | renew | create => exact h.1.atMostTwice
  | opening =>
      obtain ⟨_, c, _, ht⟩ := h
      exact ht.atMostTwice
  | openFailed | unlock | returned => exact h
  | send retry =>
      cases retry with
      | false => exact Or.inl h.2.1
      | true =>
          obtain ⟨_, first, _, hsends, _⟩ := h
          exact Or.inr (Or.inl ⟨first, hsends⟩)
  | sendFailed =>
      obtain ⟨_, first, hsends, _⟩ := h
      exact Or.inr (Or.inl ⟨first, hsends⟩)
  | closeUnlock | closeSend | closeWait | closeCancel | closeConn | closeReturned =>
      exact Or.inl h.1

theorem SystemInv.safe (h : SystemInv s) : Safe s where
  single := by
    intro c hc c' hc' halive halive'
    have hcurrent := h.client.current c hc halive
    rw [h.client.current c' hc' halive'] at hcurrent
    exact (Option.some.inj hcurrent).symm
  sends := fun i call hi => (h.ok i call hi).atMostTwice
  quiet := h.client.quiet
  closed := fun i err hi => (h.ok i _ hi).2.2

/-- Whatever the interleaving of calls, readers and failures, there is one live stream at
most, and none is left behind by `Close`. -/
theorem streams_single_and_closed (h : Reaches (Step addr) Free .init s) : Safe s :=
  (h.invariant init_inv fun _ _ _ hinv _ hstep => hinv.step hstep).safe

end Runs

section Sample

/-- A `Send` fails and is repeated on a new stream, whose reader then ends; a `Close` comes
before the next `Broadcast`. -/
def sampleRun : List Label :=
  [Label.broadcast] ++ List.replicate 6 (Label.act 0 none) ++ [Label.act 0 (some [])] ++
    List.replicate 7 (Label.act 0 none) ++ [Label.close, Label.broadcast, Label.exit 1] ++
    List.replicate 3 (Label.act 1 none) ++ List.replicate 4 (Label.act 2 none) ++
    List.replicate 4 (Label.act 1 none)

theorem streams_single_and_closed_sample :
    ∃ s, sampleRun.foldlM (System.step []) .init = some s ∧ sendsOf 0 s.client.log = [0, 1] ∧
      s.calls[1]? = some (.closeReturned none) ∧ Safe s := by
  have hrun : (sampleRun.foldlM (System.step []) .init).map (fun s =>
      (sendsOf 0 s.client.log, s.calls[1]?)) = some ([0, 1], some (.closeReturned none)) := by
    rfl
  obtain ⟨s, hs, hpair⟩ := Option.map_eq_some_iff.mp hrun
  obtain ⟨hsends, hcall⟩ := Prod.mk.inj hpair
  exact ⟨s, hs, hsends, hcall, streams_single_and_closed (Reaches.of_foldlM sampleRun hs)⟩

end Sample

end FabricXSdk.Network.Orderer
