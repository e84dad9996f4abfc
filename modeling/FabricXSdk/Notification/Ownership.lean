import FabricXSdk.Notification.Finality

/-!
# Whose entry a cleanup removes

`Unregister` removes whatever entry there is under an id. A call that gives up has
lost its own entry if `Handle` was faster, and then removes the entry of a later
call for the same transaction. This does not happen if an id is registered again
only after every earlier call for it is over.
-/

namespace FabricXSdk.Notification

open Golang Channel Transition

/-- The call is in the map, or may still unregister its id. -/
def CallPc.outstanding : CallPc → Bool
  | .queuing | .failing _ | .holding | .waiting | .leaving _ => true
  | _ => false

section Calls

variable {c c' : Call} {l : CallLabel}

theorem CallStep.insert_outstanding (h : CallStep c .insert c') : c'.pc.outstanding = true := by
  cases h
  rfl

/-- Only an insertion makes a call outstanding. -/
theorem CallStep.outstanding_of (h : CallStep c l c') (hl : l ≠ .insert)
    (h' : c'.pc.outstanding = true) : c.pc.outstanding = true := by
  cases h with
  | insert => exact absurd rfl hl
  | expire _ _ => exact h'
  | refuse _ | fail _ | receive _ _ | giveUp _ | release _ => cases h'
  | queue h | abandon h _ | leave h _ =>
      rw [h]
      rfl

/-- A call that waits for its event goes on waiting, unless it removes the entry. -/
theorem CallStep.stays_outstanding (h : CallStep c l c') (hl : l ≠ .remove)
    (hempty : c.responseCh.buffer = []) (hc : c.pc.outstanding = true) :
    c'.pc.outstanding = true := by
  cases h with
  | expire _ _ => exact hc
  | insert _ | abandon _ _ | leave _ _ => rfl
  | refuse h =>
      rw [h] at hc
      cases hc
  | queue _ =>
      dsimp only
      split <;> rfl
  | receive _ hrecv =>
      rw [Chan.recv_eq_none.mpr hempty] at hrecv
      cases hrecv
  | fail _ | giveUp _ | release _ => exact absurd rfl hl

end Calls

section Exclusion

variable {s t : Registry} {a : RegistryLabel} {c c' : Call} {l : CallLabel} {txID : GoString}
  {i j : ℕ}

/-- A call for the id is outstanding. -/
def Registry.Outstanding (s : Registry) (txID : GoString) (i : ℕ) : Prop :=
  ∃ c, s.calls[i]? = some c ∧ c.txID = txID ∧ c.pc.outstanding = true

/-- An id is inserted while no call for it is outstanding. -/
def Registry.Unclaimed (s : Registry) : RegistryLabel → Prop
  | .insert i => ∀ c, s.calls[i]? = some c → ∀ j, ¬ s.Outstanding c.txID j
  | _ => True

/-- At most one call is outstanding for each id, and it is the one in the map. -/
structure Registry.Exclusive (s : Registry) : Prop where
  single : ∀ txID i j, s.Outstanding txID i → s.Outstanding txID j → i = j
  pending : ∀ txID i, s.pending.lookup txID = some i → s.Outstanding txID i

theorem Registry.Exclusive.init : Registry.init.Exclusive where
  single := by
    rintro txID i j ⟨c, hc, _⟩ _
    cases hc
  pending := fun _ _ h => nomatch h

/-- A call that is outstanding after a step of one call was so before, or is the one
that was inserted. -/
theorem outstanding_update (hi : s.calls[i]? = some c) (hstep : CallStep c l c')
    (hcalls : t.calls = s.calls.set i c') (h : t.Outstanding txID j) :
    s.Outstanding txID j ∨ j = i ∧ l = .insert ∧ txID = c.txID := by
  obtain ⟨d, hd, hid, hout⟩ := h
  rw [hcalls] at hd
  rcases (getElem?_set_eq_some hi).mp hd with ⟨rfl, rfl⟩ | ⟨_, hd⟩
  · by_cases hl : l = .insert
    · exact Or.inr ⟨rfl, hl, hid.symm.trans hstep.kept.txID⟩
    · exact Or.inl ⟨c, hi, hstep.kept.txID.symm.trans hid, hstep.outstanding_of hl hout⟩
  · exact Or.inl ⟨d, hd, hid, hout⟩

/-- The call of a pending entry stays outstanding in a step of one call. -/
theorem pending_update (hs : s.Sound) (he : s.Exclusive) (hi : s.calls[i]? = some c)
    (hstep : CallStep c l c') (hcalls : t.calls = s.calls.set i c')
    (hl : l = .remove → txID ≠ c.txID) (hlookup : s.pending.lookup txID = some j) :
    t.Outstanding txID j := by
  obtain ⟨d, hd, hid, hout⟩ := he.pending txID j hlookup
  by_cases hij : i = j
  · subst hij
    obtain rfl : c = d := Option.some.inj (hi.symm.trans hd)
    have hempty := (hs.calls c (List.mem_of_getElem? hi)).empty (hs.owner_of hlookup hi).2.1
    refine ⟨c', hcalls ▸ getElem?_set_of_some hi c', hstep.kept.txID.trans hid, ?_⟩
    exact hstep.stays_outstanding (fun hr => hl hr hid.symm) hempty hout
  · exact ⟨d, by rw [hcalls, List.getElem?_set_ne hij, hd], hid, hout⟩

/-- A step of one call other than an insertion, with entries only going away. -/
theorem Registry.Exclusive.update (hs : s.Sound) (he : s.Exclusive) (hi : s.calls[i]? = some c)
    (hstep : CallStep c l c') (hl : l ≠ .insert) (hcalls : t.calls = s.calls.set i c')
    (hpending : ∀ txID j, t.pending.lookup txID = some j →
      (l = .remove → txID ≠ c.txID) ∧ s.pending.lookup txID = some j) :
    t.Exclusive where
  single := by
    intro txID j k hj hk
    have hold : ∀ m, t.Outstanding txID m → s.Outstanding txID m := fun m hm =>
      (outstanding_update hi hstep hcalls hm).resolve_right fun h => hl h.2.1
    exact he.single txID j k (hold j hj) (hold k hk)
  pending := by
    intro txID j hlookup
    obtain ⟨hne, hold⟩ := hpending txID j hlookup
    exact pending_update hs he hi hstep hcalls hne hold

theorem Registry.Exclusive.insert (hs : s.Sound) (he : s.Exclusive) (hi : s.calls[i]? = some c)
    (hstep : CallStep c .insert c') (hfree : ∀ j, ¬ s.Outstanding c.txID j)
    (hcalls : t.calls = s.calls.set i c') (hpending : t.pending = s.pending.insert c.txID i) :
    t.Exclusive where
  single := by
    intro txID j k hj hk
    rcases outstanding_update hi hstep hcalls hj with hj | ⟨rfl, _, hidj⟩ <;>
      rcases outstanding_update hi hstep hcalls hk with hk | ⟨rfl, _, hidk⟩
    · exact he.single txID j k hj hk
    · exact absurd (hidk ▸ hj) (hfree j)
    · exact absurd (hidj ▸ hk) (hfree k)
    · rfl
  pending := by
    intro txID j hlookup
    rw [hpending] at hlookup
    rcases lookup_insert_eq_some.mp hlookup with ⟨rfl, rfl⟩ | ⟨_, hold⟩
    · exact ⟨c', hcalls ▸ getElem?_set_of_some hi c', hstep.kept.txID,
        hstep.insert_outstanding⟩
    · exact pending_update hs he hi hstep hcalls (fun h => nomatch h) hold

/-- A step that makes no call outstanding or not, with entries only going away. -/
theorem Registry.Exclusive.shrink (he : s.Exclusive)
    (hout : ∀ txID j, t.Outstanding txID j ↔ s.Outstanding txID j)
    (hpending : ∀ txID j, t.pending.lookup txID = some j → s.pending.lookup txID = some j) :
    t.Exclusive where
  single := fun txID i j hi hj => he.single txID i j ((hout txID i).mp hi) ((hout txID j).mp hj)
  pending := fun txID i h => (hout txID i).mpr (he.pending txID i (hpending txID i h))

/-- A new call is not outstanding. -/
theorem outstanding_append {wait : Bool} (hcalls : t.calls = s.calls ++ [Call.new txID wait])
    (k : GoString) (j : ℕ) : t.Outstanding k j ↔ s.Outstanding k j := by
  unfold Registry.Outstanding
  rw [hcalls]
  constructor
  · rintro ⟨c, hc, hid, hout⟩
    rcases getElem?_concat_eq_some.mp hc with hc | ⟨_, rfl⟩
    · exact ⟨c, hc, hid, hout⟩
    · cases hout
  · rintro ⟨c, hc, hrest⟩
    exact ⟨c, getElem?_concat_eq_some.mpr (Or.inl hc), hrest⟩

theorem outstanding_set (hi : s.calls[i]? = some c) (hcalls : t.calls = s.calls.set i c')
    (hid : c'.txID = c.txID) (hpc : c'.pc = c.pc) (k : GoString) (j : ℕ) :
    t.Outstanding k j ↔ s.Outstanding k j := by
  unfold Registry.Outstanding
  rw [hcalls]
  by_cases hij : i = j
  · subst hij
    simp [getElem?_set_of_some hi, hi, hid, hpc]
  · rw [List.getElem?_set_ne hij]

theorem Registry.Exclusive.step (hs : s.Sound) (he : s.Exclusive) (hgood : s.Unclaimed a)
    (h : RegistryStep s a t) : t.Exclusive := by
  cases h with
  | call txID wait => exact he.shrink (outstanding_append rfl) fun _ _ h => h
  | alone hi hstep | refuse hi hstep _ _ | queue hi hstep =>
      exact he.update hs hi hstep (fun hl => nomatch hl) rfl fun _ _ h =>
        ⟨fun hl => (nomatch hl), h⟩
  | insert hi hstep _ _ => exact he.insert hs hi hstep (hgood _ hi) rfl rfl
  | remove hi hstep _ =>
      refine he.update hs hi hstep (fun hl => nomatch hl) rfl fun txID j hlookup => ?_
      obtain ⟨hne, hold⟩ := lookup_erase_eq_some.mp hlookup
      exact ⟨fun _ => hne, hold⟩
  | evict _ _ =>
      exact he.shrink (fun _ _ => Iff.rfl) fun _ _ h => (lookup_erase_eq_some.mp h).2
  | handle _ _ _ | skip _ _ | handled _ => exact he.shrink (fun _ _ => Iff.rfl) fun _ _ h => h
  | deliver _ _ hi _ =>
      exact he.shrink (outstanding_set hi rfl rfl rfl) fun _ _ h => (lookup_erase_eq_some.mp h).2

/-- How an entry can leave the map. -/
theorem RegistryStep.lookup_kept (he : s.Exclusive) (h : RegistryStep s a t)
    (hj : s.pending.lookup txID = some j) :
    t.pending.lookup txID = some j ∨ a = .remove j ∨ a = .evict txID ∨
      ∃ e, a = .deliver e ∧ e.txID = txID := by
  cases h with
  | @insert i c c' hi hstep _ hnew =>
      refine Or.inl (lookup_insert_eq_some.mpr (Or.inr ⟨?_, hj⟩))
      rintro rfl
      rw [hnew] at hj
      cases hj
  | @remove i c c' hi hstep _ =>
      by_cases hid : txID = c.txID
      · -- both the call that removes the entry and the one that owns it are outstanding
        have hout : c.pc.outstanding = true := by
          cases hstep with
          | fail h | giveUp h | release h =>
              rw [h]
              rfl
        have hi' : s.Outstanding txID i := ⟨c, hi, hid.symm, hout⟩
        exact Or.inr (Or.inl (by rw [he.single txID i j hi' (he.pending txID j hj)]))
      · exact Or.inl (lookup_erase_eq_some.mpr ⟨hid, hj⟩)
  | evict txID' _ =>
      by_cases hid : txID = txID'
      · exact Or.inr (Or.inr (Or.inl (by rw [hid])))
      · exact Or.inl (lookup_erase_eq_some.mpr ⟨hid, hj⟩)
  | @deliver h e rest i c ch _ _ _ _ =>
      by_cases hid : txID = e.txID
      · exact Or.inr (Or.inr (Or.inr ⟨e, rfl, hid.symm⟩))
      · exact Or.inl (lookup_erase_eq_some.mpr ⟨hid, hj⟩)
  | _ => exact Or.inl hj

end Exclusion

section Cleanup

variable {f g : Listener} {a : ListenerLabel}

/-- An id is registered only while no earlier call for it is outstanding. -/
def RegisteredAlone (f : Listener) : ListenerLabel → Prop
  | .registry r => f.registry.Unclaimed r
  | _ => True

theorem registeredAlone_of_all
    (h : f.registry.calls.all (fun c => !c.pc.outstanding) = true) (a : ListenerLabel) :
    RegisteredAlone f a := by
  unfold RegisteredAlone Registry.Unclaimed
  split
  · split
    · rintro c _ j ⟨d, hd, _, hout⟩
      have hidle := List.all_eq_true.mp h d (List.mem_of_getElem? hd)
      rw [hout] at hidle
      cases hidle
    · trivial
  · trivial

/-- Nobody but the calls and their callers unregisters an id. -/
def OwnersOnly (_ : Listener) : ListenerLabel → Prop
  | .registry (.evict _) => False
  | _ => True

theorem registry_exclusive (h : Reaches ListenerStep RegisteredAlone .init f) :
    f.registry.Sound ∧ f.registry.Exclusive :=
  @registry_invariant _ _ (fun s => s.Sound ∧ s.Exclusive) h
    ⟨Registry.Sound.init, Registry.Exclusive.init⟩
    fun _ _ _ hs hgood hstep => ⟨hs.1.step hstep, hs.2.step hs.1 hgood hstep⟩

/-- If ids are registered alone, then a call that unregisters its id removes its own
entry or none, and an entry stays until an event for it is handled or its own call
unregisters it. -/
theorem cleanup_removes_own (h : Reaches ListenerStep RegisteredAlone .init f)
    (hstep : ListenerStep f a g) :
    (∀ i txID j, a = .registry (.remove i) → f.registry.pending.lookup txID = some j →
        g.registry.pending.lookup txID ≠ some j → j = i) ∧
      (OwnersOnly f a → ∀ txID j, f.registry.pending.lookup txID = some j →
        g.registry.pending.lookup txID = some j ∨ a = .registry (.remove j) ∨
          ∃ e, a = .registry (.deliver e) ∧ e.txID = txID) := by
  have he := (registry_exclusive h).2
  have hkept : ∀ txID j, f.registry.pending.lookup txID = some j →
      g.registry.pending.lookup txID = some j ∨ a = .registry (.remove j) ∨
        a = .registry (.evict txID) ∨ ∃ e, a = .registry (.deliver e) ∧ e.txID = txID := by
    intro txID j hj
    rcases hstep.onRegistry with ⟨hsame, _⟩ | ⟨r, rfl, hr⟩
    · exact Or.inl (by rw [hsame]; exact hj)
    · simpa using hr.lookup_kept he hj
  constructor
  · intro i txID j ha hj hgone
    subst ha
    simpa [hgone, eq_comm] using hkept txID j hj
  · intro howners txID j hj
    rcases hkept txID j hj with hsame | hremove | rfl | hdeliver
    · exact Or.inl hsame
    · exact Or.inr (Or.inl hremove)
    · exact howners.elim
    · exact Or.inr (Or.inr hdeliver)

/-- A caller registers an id again after it has unregistered it. -/
theorem cleanup_removes_own_sample :
    ∃ f g, Reaches ListenerStep RegisteredAlone .init f ∧
      ListenerStep f (.registry (.remove 1)) g ∧
        ∀ txID j, f.registry.pending.lookup txID = some j →
          g.registry.pending.lookup txID ≠ some j → j = 1 := by
  have hgood : ∀ g, RegisteredAlone g (.registry (.queue sampleTxID)) := fun _ => trivial
  have h₁ : Reaches ListenerStep RegisteredAlone .init _ :=
    reaches_registered sampleTxID false Reaches.refl rfl rfl rfl trivial
      (by rintro _ rfl; exact registeredAlone_of_all rfl _) hgood
  have h₂ := h₁.step (by trivial) (.registry rfl (.remove (i := 0) rfl (.release rfl) rfl))
  have h₃ := reaches_registered sampleTxID false h₂ rfl rfl rfl trivial
    (by rintro _ rfl; exact registeredAlone_of_all rfl _) hgood
  refine ⟨_, _, h₃, .registry rfl (.remove rfl (.release rfl) rfl), fun txID j => ?_⟩
  exact (cleanup_removes_own h₃ (.registry rfl (.remove rfl (.release rfl) rfl))).1 1 txID j rfl

/-- Two calls for one transaction. The event of the first is delivered, the second
registers, and the first gives up before it has received its event. It removes the
entry of the second. -/
theorem cleanup_removes_other :
    ∃ f g err, Reaches ListenerStep OwnersOnly .init f ∧
      f.registry.calls.map Call.pc = [.leaving err, .holding] ∧
      f.registry.pending.lookup sampleTxID = some 1 ∧
      ListenerStep f (.registry (.remove 0)) g ∧
        g.registry.pending.lookup sampleTxID = none := by
  have h₁ : Reaches ListenerStep OwnersOnly .init _ :=
    reaches_registered sampleTxID true Reaches.refl rfl rfl rfl trivial (fun _ _ => trivial)
      fun _ => trivial
  -- the event of the first call
  have h₂ := h₁.step (by trivial) (.registry rfl (.handle .other [sampleEvent] rfl))
  have h₃ := h₂.step (by trivial) (.registry rfl (.deliver rfl rfl rfl rfl))
  have h₄ := h₃.step (by trivial) (.registry rfl (.handled rfl))
  have h₅ := reaches_registered sampleTxID false h₄ rfl rfl rfl trivial (fun _ _ => trivial)
    fun _ => trivial
  -- the context of the first call
  have h₆ := h₅.step (by trivial)
    (.registry rfl (.alone (i := 0) rfl (.expire [.lit "context deadline exceeded"] rfl)))
  have h₇ := h₆.step (by trivial) (.registry rfl (.alone (i := 0) rfl (.leave rfl rfl)))
  exact ⟨_, _, _, h₇, rfl, rfl, .registry rfl (.remove (i := 0) rfl (.giveUp rfl) rfl), rfl⟩

end Cleanup

end FabricXSdk.Notification
