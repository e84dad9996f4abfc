import FabricXSdk.Notification.Finality

/-!
# Subscriptions across sessions

The send loop of a session that is over may still run, and its `select` may receive
a batch from `subCh` although its context is done. The batch is then not sent on the
stream of the current session. If no send loop does that, the subscription of every
pending transaction is on its way to the current stream or has been sent there, as
soon as `onConnect` has taken its snapshot.
-/

namespace FabricXSdk.Notification

open Golang Channel Transition Network.FabricX

/-- `Register` has returned the channel. -/
def CallPc.subscribed : CallPc → Bool
  | .locking | .queuing | .failing _ | .refused _ => false
  | _ => true

/-- The id is pending, by a call whose `Register` has returned its channel. -/
def Registry.Awaits (s : Registry) (txID : GoString) : Prop :=
  ∃ i c, s.pending.lookup txID = some i ∧ s.calls[i]? = some c ∧ c.pc.subscribed = true

/-- The stream of the session has neither failed nor ended with its context. -/
def Session.Up (σ : Session) : Prop := σ.notify.broken = false ∧ σ.notify.ctxDone = false

/-- Where the subscription of an id can be, for one session. -/
inductive Covered (subCh : Chan (List GoString)) (σ : Session) (txID : GoString) : Prop
  /-- held unsent by `onConnect` -/
  | held {txIDs} (h : σ.onConnect = .holding txIDs) (hmem : txID ∈ txIDs)
  | queued {batch} (h : batch ∈ subCh.buffer) (hmem : txID ∈ batch)
  /-- held by the send loop -/
  | sending {batch} (h : σ.notify.sender = .sending batch) (hmem : txID ∈ batch)
  | sent {batch} (h : batch ∈ σ.sent) (hmem : txID ∈ batch)

section Registry

variable {s t : Registry} {a : RegistryLabel} {c c' : Call} {l : CallLabel} {txID : GoString}

/-- A call whose `Register` has returned was so before its action, unless it queues
its subscription or removes its entry. -/
theorem CallStep.subscribed_of (h : CallStep c l c') (hq : l ≠ .queue) (hr : l ≠ .remove)
    (h' : c'.pc.subscribed = true) : c.pc.subscribed = true := by
  cases h with
  | expire _ _ => exact h'
  | insert _ | refuse _ | abandon _ _ => cases h'
  | queue _ => exact absurd rfl hq
  | receive h _ => rcases h with h | h <;> rw [h] <;> rfl
  | leave h _ =>
      rw [h]
      rfl
  | fail _ | giveUp _ | release _ => exact absurd rfl hr

/-- A step of one call. An id that is awaited after it was so before, unless the call
has just queued it. -/
theorem awaits_update {i : ℕ} (hs : s.Sound) (h : t.Awaits txID) (hi : s.calls[i]? = some c)
    (hstep : CallStep c l c') (hcalls : t.calls = s.calls.set i c')
    (hpending : ∀ j, t.pending.lookup txID = some j →
      (l = .remove → txID ≠ c.txID) ∧ (s.pending.lookup txID = some j ∨ l = .insert ∧ j = i)) :
    s.Awaits txID ∨ l = .queue ∧ txID = c.txID := by
  obtain ⟨j, d, hj, hd, hsub⟩ := h
  obtain ⟨hremove, hold⟩ := hpending j hj
  rw [hcalls] at hd
  rcases (getElem?_set_eq_some hi).mp hd with ⟨rfl, rfl⟩ | ⟨hij, hd⟩
  · rcases hold with hold | ⟨rfl, _⟩
    · have hid := (hs.owner_of hold hi).1
      by_cases hq : l = .queue
      · exact Or.inr ⟨hq, hid.symm⟩
      · exact Or.inl ⟨i, c, hold, hi, hstep.subscribed_of hq (fun hr => hremove hr hid.symm) hsub⟩
    · -- a call that was just inserted has not returned
      cases hstep
      cases hsub
  · rcases hold with hold | ⟨_, rfl⟩
    · exact Or.inl ⟨j, d, hold, hd, hsub⟩
    · exact absurd rfl hij

theorem RegistryStep.awaits (hs : s.Sound) (h : RegistryStep s a t) (ht : t.Awaits txID) :
    s.Awaits txID ∨ a = .queue txID := by
  cases h with
  | call _ _ =>
      obtain ⟨i, c, hi, hc, hsub⟩ := ht
      obtain ⟨c₀, hc₀, _⟩ := hs.owner txID i hi
      have hlt : i < s.calls.length := (List.getElem?_eq_some_iff.mp hc₀).1
      exact Or.inl ⟨i, c, hi, (List.getElem?_append_left hlt).symm.trans hc, hsub⟩
  | alone hi hstep | refuse hi hstep _ _ =>
      have h := awaits_update hs ht hi hstep rfl fun _ hj => ⟨fun hl => (nomatch hl), Or.inl hj⟩
      exact Or.inl (h.resolve_right fun hq => nomatch hq.1)
  | queue hi hstep =>
      have h := awaits_update hs ht hi hstep rfl fun _ hj => ⟨fun hl => (nomatch hl), Or.inl hj⟩
      exact h.imp_right fun hq => by rw [hq.2]
  | insert hi hstep _ _ =>
      refine Or.inl ((awaits_update hs ht hi hstep rfl ?_).resolve_right fun hq => nomatch hq.1)
      intro j hj
      refine ⟨fun hl => (nomatch hl), ?_⟩
      rcases lookup_insert_eq_some.mp hj with ⟨_, rfl⟩ | ⟨_, hold⟩
      · exact Or.inr ⟨rfl, rfl⟩
      · exact Or.inl hold
  | remove hi hstep _ =>
      refine Or.inl ((awaits_update hs ht hi hstep rfl ?_).resolve_right fun hq => nomatch hq.1)
      intro j hj
      obtain ⟨hne, hold⟩ := lookup_erase_eq_some.mp hj
      exact ⟨fun _ => hne, Or.inl hold⟩
  | evict _ _ =>
      obtain ⟨i, c, hi, hc, hsub⟩ := ht
      exact Or.inl ⟨i, c, (lookup_erase_eq_some.mp hi).2, hc, hsub⟩
  | handle _ _ _ | skip _ _ | handled _ => exact Or.inl ht
  | @deliver h e rest i c ch _ hsome hi _ =>
      obtain ⟨j, d, hj, hd, hsub⟩ := ht
      have hold := (lookup_erase_eq_some.mp hj).2
      -- the call that gets the event stays where it is
      rcases (getElem?_set_eq_some hi).mp hd with ⟨rfl, rfl⟩ | ⟨_, hd⟩
      · exact Or.inl ⟨i, c, hold, hi, hsub⟩
      · exact Or.inl ⟨j, d, hold, hd, hsub⟩

end Registry

section Sessions

variable {f g : Listener} {a : ListenerLabel} {σ σ' : Session} {q q' : Chan (List GoString)}
  {txID : GoString} {k : ℕ}

theorem subset_of_send {batch : List GoString} (h : q.send batch = some q') :
    q.buffer ⊆ q'.buffer ∧ batch ∈ q'.buffer := by
  rw [(Chan.send_eq_some.mp h).2]
  exact ⟨List.subset_append_left _ _, List.mem_append_right _ (List.mem_singleton_self _)⟩

/-- What an action does to the session it belongs to. Subscriptions move on, or the
stream is down. -/
structure Flow (r : Registry) (q q' : Chan (List GoString)) (σ σ' : Session) : Prop where
  broken : σ.notify.broken = true → σ'.notify.broken = true
  ctxDone : σ.notify.ctxDone = true → σ'.notify.ctxDone = true
  fresh : σ.notify.Fresh → σ'.notify.Fresh
  /-- `onConnect` has not taken its snapshot, or has just done so -/
  starting : σ.onConnect = .starting →
    σ'.onConnect = .starting ∨ ∀ txID ∈ r.pending, Covered q' σ' txID
  covered : σ.notify.Fresh → σ'.Up → ∀ txID, Covered q σ txID → Covered q' σ' txID

/-- A stream that is up after an action was up before. -/
theorem Flow.up {r : Registry} (h : Flow r q q' σ σ') (hup : σ'.Up) : σ.Up := by
  constructor
  · apply Bool.eq_false_iff.mpr
    intro hb
    simpa [hup.1] using h.broken hb
  · apply Bool.eq_false_iff.mpr
    intro hb
    simpa [hup.2] using h.ctxDone hb

/-- A subscription stays where it is, or moves on: from `onConnect` to the channel, from
there to the send loop, and from the send loop to the stream. -/
theorem Covered.advance (h : Covered q σ txID)
    (hheld : ∀ txIDs, σ.onConnect = .holding txIDs →
      σ'.onConnect = .holding txIDs ∨ txIDs ∈ q'.buffer)
    (hqueued : ∀ batch ∈ q.buffer, txID ∈ batch →
      batch ∈ q'.buffer ∨ σ'.notify.sender = .sending batch)
    (hsending : ∀ batch, σ.notify.sender = .sending batch →
      σ'.notify.sender = .sending batch ∨ batch ∈ σ'.sent)
    (hsent : σ.sent ⊆ σ'.sent) : Covered q' σ' txID := by
  cases h with
  | held h hmem =>
      rcases hheld _ h with h | h
      · exact .held h hmem
      · exact .queued h hmem
  | queued h hmem =>
      rcases hqueued _ h hmem with h | h
      · exact .queued h hmem
      · exact .sending h hmem
  | sending h hmem =>
      rcases hsending _ h with h | h
      · exact .sending h hmem
      · exact .sent h hmem
  | sent h hmem => exact .sent (hsent h) hmem

theorem Covered.grow (h : Covered q σ txID) (hq : q.buffer ⊆ q'.buffer) : Covered q' σ txID :=
  h.advance (fun _ => Or.inl) (fun _ hb _ => Or.inl (hq hb)) (fun _ => Or.inl)
    (List.Subset.refl _)

theorem Flow.notify {r : Registry} {l : NotifyLabel} {n : NotifyState}
    (h : NotifyStep σ.notify l n) (hl : ∀ batch, l ≠ .sent batch) :
    Flow r q q σ { σ with notify := n } where
  broken := h.down_mono.1
  ctxDone := h.down_mono.2
  fresh := h.fresh
  starting := Or.inl
  covered := by
    intro hfresh hup txID hcov
    refine hcov.advance (fun _ => Or.inl) (fun _ hb _ => Or.inl hb) ?_ (List.Subset.refl _)
    exact fun batch hs => Or.inl (h.sending hfresh hs (hl batch) hup.1)

theorem Flow.take {r : Registry} {batch : List GoString} {n : NotifyState}
    (hrecv : q.recv = some (batch, q')) (h : NotifyStep σ.notify (.take batch) n) :
    Flow r q q' σ { σ with notify := n } where
  broken := h.down_mono.1
  ctxDone := h.down_mono.2
  fresh := h.fresh
  starting := Or.inl
  covered := by
    intro hfresh hup txID hcov
    refine hcov.advance (fun _ => Or.inl) ?_ ?_ (List.Subset.refl _)
    · intro b hb hmem
      rw [(Chan.recv_eq_some.mp hrecv).2] at hb
      rcases List.mem_cons.mp hb with rfl | hb
      · -- the batch is now in the hands of the send loop
        cases h with
        | takes _ _ => exact Or.inr (if_neg (List.ne_nil_of_mem hmem))
      · exact Or.inl hb
    · exact fun b hs => Or.inl (h.sending hfresh hs (fun hl => nomatch hl) hup.1)

theorem Flow.sent {r : Registry} {batch : List GoString} {n : NotifyState}
    (h : NotifyStep σ.notify (.sent batch) n) :
    Flow r q q σ { σ with notify := n, sent := σ.sent ++ [batch] } where
  broken := h.down_mono.1
  ctxDone := h.down_mono.2
  fresh := h.fresh
  starting := Or.inl
  covered := by
    intro _ _ txID hcov
    refine hcov.advance (fun _ => Or.inl) (fun _ hb _ => Or.inl hb) ?_
      (List.subset_append_left _ _)
    intro b hs
    cases h with
    | sends hsending =>
        rw [hsending, SendPc.sending.injEq] at hs
        subst hs
        exact Or.inr (List.mem_append_right _ (List.mem_singleton_self _))

/-- An action of `onConnect` after the snapshot, which does not drop it. -/
theorem Flow.onConnect {r : Registry} {pc : OnConnectPc} (hpc : σ.onConnect ≠ .starting)
    (hq : q.buffer ⊆ q'.buffer)
    (hheld : ∀ txIDs, σ.onConnect = .holding txIDs →
      txIDs ∈ q'.buffer ∨ σ.notify.ctxDone = true) :
    Flow r q q' σ { σ with onConnect := pc } where
  broken := id
  ctxDone := id
  fresh := id
  starting := fun h => absurd h hpc
  covered := by
    intro _ hup txID hcov
    refine hcov.advance ?_ (fun _ hb _ => Or.inl (hq hb)) (fun _ => Or.inl) (List.Subset.refl _)
    intro txIDs h
    apply Or.inr
    apply (hheld txIDs h).resolve_right
    rw [hup.2]
    exact Bool.false_ne_true

theorem Flow.snapshot {r : Registry} {txIDs : List GoString} (hpc : σ.onConnect = .starting)
    (hids : txIDs.Perm r.pending.keys) :
    Flow r q q σ { σ with onConnect := if txIDs = [] then .exited else .holding txIDs } where
  broken := id
  ctxDone := id
  fresh := id
  starting := by
    intro _
    apply Or.inr
    intro txID hmem
    have hid : txID ∈ txIDs := hids.mem_iff.mpr (AList.mem_keys.mp hmem)
    exact .held (if_neg (List.ne_nil_of_mem hid)) hid
  covered := by
    intro _ _ txID hcov
    refine hcov.advance ?_ (fun _ hb _ => Or.inl hb) (fun _ => Or.inl) (List.Subset.refl _)
    rw [hpc]
    exact fun _ h => nomatch h

/-- What an action does to the sessions. -/
inductive SessionEffect (f : Listener) (a : ListenerLabel) (g : Listener) : Prop
  | aside (hs : g.sessions = f.sessions) (hpc : ∀ k, g.pc = .running k ↔ f.pc = .running k)
      (hq : f.subCh.buffer ⊆ g.subCh.buffer)
  | cancel (hs : g.sessions = f.sessions.map Session.cancel) (hpc : g.pc = f.pc)
  | connect (hs : g.sessions = f.sessions ++ [Session.new]) (htop : ∀ k, f.pc ≠ .running k)
      (hpc : g.pc = .running f.sessions.length)
  | leave {k : ℕ} {σ : Session} (hk : f.pc = .running k) (hσ : f.sessions[k]? = some σ)
      (hs : g.sessions = f.sessions.set k σ.cancel) (hpc : ∀ j, g.pc ≠ .running j)
  | session {k : ℕ} {σ σ' : Session} (hσ : f.sessions[k]? = some σ)
      (hs : g.sessions = f.sessions.set k σ') (hpc : g.pc = f.pc)
      (hflow : Flow f.registry f.subCh g.subCh σ σ')
      (hq : f.subCh.buffer ⊆ g.subCh.buffer ∨ a = .take k)

theorem ListenerStep.effect (h : ListenerStep f a g) : SessionEffect f a g := by
  cases h with
  | registry _ _ => exact .aside rfl (fun _ => Iff.rfl) (List.Subset.refl _)
  | queue _ hsend => exact .aside rfl (fun _ => Iff.rfl) (subset_of_send hsend).1
  | cancel => exact .cancel rfl rfl
  | stop h _ | wake h | interrupt h _ =>
      refine .aside rfl (fun k => ?_) (List.Subset.refl _)
      rw [h]
      exact ⟨fun hk => (nomatch hk), fun hk => (nomatch hk)⟩
  | connect h _ =>
      refine .connect rfl (fun k => ?_) rfl
      rw [h]
      exact fun hk => nomatch hk
  | disconnect h hk _ _ => exact .leave h hk rfl fun _ hj => nomatch hj
  | close h hk _ _ => exact .leave h hk rfl fun _ hj => nomatch hj
  | notify hk ha hstep =>
      refine .session hk rfl rfl (Flow.notify hstep ?_) (Or.inl (List.Subset.refl _))
      rintro batch rfl
      rcases ha with ha | ha <;> cases ha
  | take hk hrecv hstep => exact .session hk rfl rfl (Flow.take hrecv hstep) (Or.inr rfl)
  | sent hk hstep => exact .session hk rfl rfl (Flow.sent hstep) (Or.inl (List.Subset.refl _))
  | process hk hstep _ | processed hk hstep _ =>
      exact .session hk rfl rfl (Flow.notify hstep fun _ hl => nomatch hl)
        (Or.inl (List.Subset.refl _))
  | snapshot hk hpc _ hids =>
      exact .session hk rfl rfl (Flow.snapshot hpc hids) (Or.inl (List.Subset.refl _))
  | resubscribe hk hpc hsend =>
      obtain ⟨hsub, hmem⟩ := subset_of_send hsend
      refine .session hk rfl rfl (Flow.onConnect ?_ hsub fun ids hheld => ?_) (Or.inl hsub)
      · rw [hpc]
        exact fun h => nomatch h
      · rw [hpc, OnConnectPc.holding.injEq] at hheld
        exact Or.inl (hheld ▸ hmem)
  | giveUp hk hpc hctx =>
      refine .session hk rfl rfl (Flow.onConnect ?_ (List.Subset.refl _) fun _ _ => Or.inr hctx)
        (Or.inl (List.Subset.refl _))
      rw [hpc]
      exact fun h => nomatch h
  | queried _ hk hpc | unqueried hk hpc | reconcile hk hpc _ | reconciled hk hpc _ =>
      refine .session hk rfl rfl (Flow.onConnect ?_ (List.Subset.refl _) ?_)
        (Or.inl (List.Subset.refl _))
      · rw [hpc]
        exact fun h => nomatch h
      · rw [hpc]
        exact fun _ h => nomatch h

end Sessions

section Coverage

variable {f g : Listener} {a : ListenerLabel} {txID : GoString}

/-- A send loop whose context is done receives no batch. -/
def TakesLive (f : Listener) : ListenerLabel → Prop
  | .take k => ∀ σ, f.sessions[k]? = some σ → σ.notify.done = false
  | _ => True

/-- No subscription of a pending id is lost to the session that `Start` is in. -/
structure Covers (f : Listener) : Prop where
  sound : f.registry.Sound
  fresh : ∀ σ ∈ f.sessions, σ.notify.Fresh
  /-- the context of every other session is done -/
  cancelled : ∀ k σ, f.sessions[k]? = some σ → f.pc ≠ .running k → σ.notify.ctxDone = true
  covered : ∀ k σ txID, f.pc = .running k → f.sessions[k]? = some σ →
    σ.onConnect ≠ .starting → σ.Up → f.registry.Awaits txID → Covered f.subCh σ txID

theorem Covers.init : Covers Listener.init where
  sound := Registry.Sound.init
  fresh := fun _ h => nomatch h
  cancelled := fun _ _ h => nomatch h
  covered := fun _ _ _ h => nomatch h

theorem Session.cancel_fresh {σ : Session} (h : σ.notify.Fresh) : σ.cancel.notify.Fresh := h

theorem Covers.step_fresh (hf : Covers f) (h : ListenerStep f a g) :
    ∀ σ ∈ g.sessions, σ.notify.Fresh := by
  cases h.effect with
  | aside hs _ _ =>
      rw [hs]
      exact hf.fresh
  | cancel hs _ =>
      rw [hs]
      intro τ hτ
      obtain ⟨σ, hσ, rfl⟩ := List.mem_map.mp hτ
      exact Session.cancel_fresh (hf.fresh σ hσ)
  | connect hs _ _ =>
      rw [hs]
      intro τ hτ
      rcases List.mem_append.mp hτ with hτ | hτ
      · exact hf.fresh τ hτ
      · rw [List.mem_singleton.mp hτ]
        exact fun _ => ⟨rfl, rfl⟩
  | leave _ hσ hs _ =>
      rw [hs]
      intro τ hτ
      rcases List.mem_or_eq_of_mem_set hτ with hτ | rfl
      · exact hf.fresh τ hτ
      · exact Session.cancel_fresh (hf.fresh _ (List.mem_of_getElem? hσ))
  | session hσ hs _ hflow _ =>
      rw [hs]
      intro τ hτ
      rcases List.mem_or_eq_of_mem_set hτ with hτ | rfl
      · exact hf.fresh τ hτ
      · exact hflow.fresh (hf.fresh _ (List.mem_of_getElem? hσ))

theorem Covers.step_cancelled (hf : Covers f) (h : ListenerStep f a g) {j : ℕ} {τ : Session}
    (hτ : g.sessions[j]? = some τ) (hj : g.pc ≠ .running j) : τ.notify.ctxDone = true := by
  cases h.effect with
  | aside hs hpc _ => exact hf.cancelled j τ (hs ▸ hτ) fun h => hj ((hpc j).mpr h)
  | cancel hs _ =>
      rw [hs, List.getElem?_map, Option.map_eq_some_iff] at hτ
      obtain ⟨σ, _, rfl⟩ := hτ
      rfl
  | connect hs htop hpc =>
      rw [hs] at hτ
      rcases getElem?_concat_eq_some.mp hτ with hτ | ⟨rfl, _⟩
      · exact hf.cancelled j τ hτ (htop j)
      · exact absurd hpc hj
  | @leave k σ hk hσ hs _ =>
      rw [hs] at hτ
      rcases (getElem?_set_eq_some hσ).mp hτ with ⟨rfl, rfl⟩ | ⟨hjk, hτ⟩
      · rfl
      · apply hf.cancelled j τ hτ
        rw [hk]
        exact fun h => hjk (StartPc.running.inj h)
  | @session k σ σ' hσ hs hpc hflow _ =>
      rw [hs] at hτ
      rw [hpc] at hj
      rcases (getElem?_set_eq_some hσ).mp hτ with ⟨rfl, rfl⟩ | ⟨_, hτ⟩
      · exact hflow.ctxDone (hf.cancelled k σ hσ hj)
      · exact hf.cancelled j τ hτ hj

/-- A subscription that is queued is in the channel. -/
theorem ListenerStep.queued (h : ListenerStep f (.registry (.queue txID)) g) :
    [txID] ∈ g.subCh.buffer := by
  cases h with
  | registry ha _ => cases ha
  | queue _ hsend => exact (subset_of_send hsend).2

theorem Covers.step_covered (hf : Covers f) (hgood : TakesLive f a) (h : ListenerStep f a g)
    {j : ℕ} {τ : Session} (hj : g.pc = .running j) (hτ : g.sessions[j]? = some τ)
    (hstart : τ.onConnect ≠ .starting) (hup : τ.Up) (hawait : f.registry.Awaits txID) :
    Covered g.subCh τ txID := by
  cases h.effect with
  | aside hs hpc hq =>
      rw [hs] at hτ
      exact (hf.covered j τ txID ((hpc j).mp hj) hτ hstart hup hawait).grow hq
  | cancel hs _ =>
      rw [hs, List.getElem?_map, Option.map_eq_some_iff] at hτ
      obtain ⟨σ, _, rfl⟩ := hτ
      cases hup.2
  | connect hs _ hpc =>
      rw [hpc] at hj
      obtain rfl := StartPc.running.inj hj
      rw [hs, List.getElem?_concat_length, Option.some.injEq] at hτ
      subst hτ
      exact absurd rfl hstart
  | leave _ _ _ hpc => exact absurd hj (hpc j)
  | @session k σ σ' hσ hs hpc hflow hq =>
      rw [hpc] at hj
      rw [hs] at hτ
      rcases (getElem?_set_eq_some hσ).mp hτ with ⟨rfl, rfl⟩ | ⟨hjk, hτ⟩
      · by_cases hpc₀ : σ.onConnect = .starting
        · refine (hflow.starting hpc₀).resolve_left hstart txID ?_
          obtain ⟨i, _, hi, _⟩ := hawait
          exact AList.lookup_isSome.mp (by rw [hi]; rfl)
        · apply hflow.covered (hf.fresh σ (List.mem_of_getElem? hσ)) hup
          exact hf.covered k σ txID hj hσ hpc₀ (hflow.up hup) hawait
      · have hcov := hf.covered j τ txID hj hτ hstart hup hawait
        rcases hq with hq | rfl
        · exact hcov.grow hq
        · -- only the send loop of the current session takes a batch
          have hdone : σ.notify.ctxDone = true := by
            refine hf.cancelled k σ hσ ?_
            rw [hj]
            exact fun h => hjk (StartPc.running.inj h).symm
          have hlive := hgood σ hσ
          rw [NotifyState.done, hdone] at hlive
          cases hlive

theorem Covers.step (hf : Covers f) (hgood : TakesLive f a) (h : ListenerStep f a g) :
    Covers g where
  sound := by
    rcases h.onRegistry with ⟨hsame, _⟩ | ⟨r, _, hr⟩
    · rw [hsame]
      exact hf.sound
    · exact hf.sound.step hr
  fresh := hf.step_fresh h
  cancelled := fun _ _ hτ hj => hf.step_cancelled h hτ hj
  covered := by
    intro j τ txID hj hτ hstart hup hawait
    have hbefore : f.registry.Awaits txID ∨ a = .registry (.queue txID) := by
      rcases h.onRegistry with ⟨hsame, _⟩ | ⟨r, rfl, hr⟩
      · rw [hsame] at hawait
        exact Or.inl hawait
      · exact (hr.awaits hf.sound hawait).imp_right fun hq => by rw [hq]
    rcases hbefore with hbefore | rfl
    · exact hf.step_covered hgood h hj hτ hstart hup hbefore
    · exact .queued h.queued (List.mem_singleton_self _)

/-- If no send loop receives a batch after its context is done, then no subscription
is lost: once the current session has taken its snapshot, and as long as its stream
is up, the subscription of every id that is pending with a channel returned is held
by `onConnect`, queued, held by the send loop, or sent on the stream. -/
theorem no_subscription_lost (h : Reaches ListenerStep TakesLive .init f) {k : ℕ} {σ : Session}
    (hk : f.pc = .running k) (hσ : f.sessions[k]? = some σ) (hsnapshot : σ.onConnect ≠ .starting)
    (hup : σ.Up) (hawait : f.registry.Awaits txID) : Covered f.subCh σ txID := by
  have hinv : Covers f := h.invariant Covers.init fun _ _ _ hf hgood hstep => hf.step hgood hstep
  exact hinv.covered k σ txID hk hσ hsnapshot hup hawait

/-- A subscription in the hands of the send loop. -/
def sampleTaken : Listener where
  registry :=
    { mu := none
      pending := AList.insert sampleTxID 0 ∅
      calls := [{ Call.new sampleTxID false with pc := .holding }] }
  subCh := Chan.make 256
  sessions :=
    [{ notify :=
        { NotifyState.init with
          pc := .selecting, sender := .sending [sampleTxID], receiver := .receiving }
       onConnect := .exited
       sent := [] }]
  ctxDone := false
  pc := .running 0
  backoff := initBackoff

theorem no_subscription_lost_sample :
    ∃ σ, Reaches ListenerStep TakesLive .init sampleTaken ∧ sampleTaken.sessions[0]? = some σ ∧
      sampleTaken.registry.Awaits sampleTxID ∧ Covered sampleTaken.subCh σ sampleTxID := by
  have h₁ : Reaches ListenerStep TakesLive .init _ :=
    Reaches.refl.step (by trivial) (.connect rfl rfl)
  have h₂ := h₁.step (by trivial) (.notify (k := 0) rfl (Or.inl rfl) (.opens rfl))
  have h₃ := h₂.step (by trivial) (.snapshot (k := 0) rfl rfl rfl (.refl _))
  have h₄ := reaches_registered sampleTxID false h₃ rfl rfl rfl trivial (fun _ _ => trivial)
    fun _ => trivial
  have h₅ := h₄.step (a := .take 0) (by rintro σ ⟨⟩; rfl) (.take rfl rfl (.takes _ rfl))
  have htaken : Reaches ListenerStep TakesLive .init sampleTaken := h₅
  have hawait : sampleTaken.registry.Awaits sampleTxID := ⟨0, _, rfl, rfl, rfl⟩
  exact ⟨_, htaken, rfl, hawait,
    no_subscription_lost htaken rfl rfl (fun h => nomatch h) ⟨rfl, rfl⟩ hawait⟩

/-- The send loop of a session that is over, with a subscription it has received. -/
def sampleStale : Listener where
  registry := sampleTaken.registry
  subCh := Chan.make 256
  sessions :=
    [{ notify :=
        { ctxDone := true
          cancelled := true
          broken := true
          errCh := Chan.make 1
          pc := .returned (some [.lit "recv: ", .lit "unavailable"])
          sender := .sending [sampleTxID]
          receiver := .exited }
       onConnect := .starting
       sent := [] },
     { Session.new with onConnect := .exited }]
  ctxDone := false
  pc := .running 1
  backoff := 1000

/-- The first session fails, and its send loop is still in its `select` when the
second has taken its snapshot. It receives the next subscription, which nobody sends
on the second stream. -/
theorem stale_loop_takes_subscription :
    ∃ σ, Reaches ListenerStep Free .init sampleStale ∧ sampleStale.pc = .running 1 ∧
      sampleStale.sessions[1]? = some σ ∧ σ.onConnect ≠ .starting ∧ σ.Up ∧
        sampleStale.registry.Awaits sampleTxID ∧ ¬ Covered sampleStale.subCh σ sampleTxID := by
  have h₁ : Reaches ListenerStep Free .init _ := Reaches.refl.step trivial (.connect rfl rfl)
  have h₂ := @reaches_notify _ _ 0 _ _ h₁ rfl (fun _ => trivial) (reaches_sampleDown fun _ => rfl)
  have h₃ := h₂.step trivial (.notify (k := 0) rfl (Or.inl rfl) (.returnsErr rfl rfl))
  have h₄ := h₃.step trivial (.disconnect rfl rfl rfl rfl)
  have h₅ := h₄.step trivial (.wake rfl)
  -- the second session
  have h₆ := h₅.step trivial (.connect rfl rfl)
  have h₇ := h₆.step trivial (.snapshot (k := 1) rfl rfl rfl (.refl _))
  have h₈ := reaches_registered sampleTxID false h₇ rfl rfl rfl trivial (fun _ _ => trivial)
    fun _ => trivial
  have h₉ := h₈.step trivial (.take (k := 0) rfl rfl (.takes _ rfl))
  have hstale : Reaches ListenerStep Free .init sampleStale := h₉
  refine ⟨_, hstale, rfl, rfl, fun h => (nomatch h), ⟨rfl, rfl⟩, ⟨0, _, rfl, rfl, rfl⟩, ?_⟩
  intro hcov
  cases hcov with
  | held h _ => cases h
  | queued h _ => cases h
  | sending h _ => cases h
  | sent h _ => cases h

end Coverage

end FabricXSdk.Notification
