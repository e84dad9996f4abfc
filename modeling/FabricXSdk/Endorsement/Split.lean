import FabricXSdk.Endorsement.FabricX

/-!
# How a read/write set is split

With distinct read keys and distinct write keys, the loop of `buildTx` partitions
the set: a write is paired with the read of its key if there is one, and the reads
that are left are those of keys that are not written. The three lists do not
depend on the order of the reads and writes up to a permutation, and sorting
removes that too.
-/

namespace FabricXSdk.Endorsement.FabricX

open Golang Blocks

/-- The read paired with a key. -/
def readOf (reads : List KVRead) (key : GoString) : Option KVRead := (readMap reads).lookup key

/-- The write of a key that was read. -/
def toReadWrite (reads : List KVRead) (w : KVWrite) : Option Proto.ReadWrite :=
  (readOf reads w.key).map fun r => ⟨w.key, readVersion r, writtenValue w⟩

/-- The write of a key that was not read. -/
def toBlindWrite (reads : List KVRead) (w : KVWrite) : Option Proto.Write :=
  match readOf reads w.key with
  | some _ => none
  | none => some ⟨w.key, writtenValue w⟩

section ReadMap

theorem foldl_insert_lookup {reads : List KVRead} (h : (reads.map KVRead.key).Nodup)
    (m : GoMap KVRead) {key : GoString} {r : KVRead} :
    (reads.foldl (fun m r => m.insert r.key r) m).lookup key = some r ↔
      (r ∈ reads ∧ r.key = key) ∨ ((∀ x ∈ reads, x.key ≠ key) ∧ m.lookup key = some r) := by
  induction reads generalizing m with
  | nil => simp
  | cons x rest ih =>
      obtain ⟨hx, hrest⟩ := List.nodup_cons.mp h
      have hne : ∀ y ∈ rest, y.key ≠ x.key := by
        intro y hy heq
        exact hx (heq ▸ List.mem_map_of_mem hy)
      rw [List.foldl_cons, ih hrest]
      -- the insert decides for the key of `x`; distinctness keeps later reads away from it
      by_cases hk : key = x.key
      · subst hk
        rw [AList.lookup_insert]
        constructor
        · rintro (⟨hr, hkey⟩ | ⟨_, hr⟩)
          · exact absurd hkey (hne r hr)
          · cases hr
            exact Or.inl ⟨List.mem_cons_self, rfl⟩
        · rintro (⟨hr, hkey⟩ | ⟨hall, _⟩)
          · rcases List.mem_cons.mp hr with rfl | hr
            · exact Or.inr ⟨hne, rfl⟩
            · exact absurd hkey (hne r hr)
          · exact absurd rfl (hall x List.mem_cons_self)
      · have hk' : x.key ≠ key := fun heq => hk heq.symm
        rw [AList.lookup_insert_ne hk, List.forall_mem_cons, List.mem_cons]
        constructor
        · rintro (⟨hr, hkey⟩ | ⟨hall, hr⟩)
          · exact Or.inl ⟨Or.inr hr, hkey⟩
          · exact Or.inr ⟨⟨hk', hall⟩, hr⟩
        · rintro (⟨rfl | hr, hkey⟩ | ⟨⟨_, hall⟩, hr⟩)
          · exact absurd hkey hk'
          · exact Or.inl ⟨hr, hkey⟩
          · exact Or.inr ⟨hall, hr⟩

theorem readOf_eq_some {reads : List KVRead} (h : (reads.map KVRead.key).Nodup) {key : GoString}
    {r : KVRead} : readOf reads key = some r ↔ r ∈ reads ∧ r.key = key := by
  rw [readOf, readMap, foldl_insert_lookup h]
  simp

theorem readOf_perm {reads reads' : List KVRead} (h : (reads.map KVRead.key).Nodup)
    (hp : reads.Perm reads') : readOf reads = readOf reads' := by
  have h' : (reads'.map KVRead.key).Nodup := (hp.map KVRead.key).nodup_iff.mp h
  funext key
  apply Option.ext
  intro r
  rw [readOf_eq_some h, readOf_eq_some h', hp.mem_iff]

end ReadMap

section Loop

theorem foldl_add_lookup (ws : List KVWrite) (s : Split) (key : GoString) :
    (ws.foldl Split.add s).readByKey.lookup key =
      if key ∈ ws.map KVWrite.key then none else s.readByKey.lookup key := by
  induction ws generalizing s with
  | nil => simp
  | cons w ws ih =>
      have hstep : (s.add w).readByKey.lookup key =
          if key = w.key then none else s.readByKey.lookup key := by
        simp only [Split.add]
        split
        · by_cases hk : key = w.key
          · rw [if_pos hk, hk, AList.lookup_erase]
          · rw [if_neg hk, AList.lookup_erase_ne hk]
        · rename_i hnone
          by_cases hk : key = w.key
          · rw [if_pos hk, hk, hnone]
          · rw [if_neg hk]
      rw [List.foldl_cons, ih, hstep, List.map_cons]
      by_cases hk : key = w.key <;> simp [hk]

/-- A step looks up the key of its write only, so later lookups are those of the start. -/
theorem add_lookup_ne (s : Split) {w : KVWrite} {key : GoString} (h : key ≠ w.key) :
    (s.add w).readByKey.lookup key = s.readByKey.lookup key := by
  have hstep := foldl_add_lookup [w] s key
  simpa [h] using hstep

/-- What the loop collects into a list: each write looks its key up in the map at the
start, since no other write has that key. -/
theorem foldl_add_collects {γ : Type} (out : Split → List γ)
    (f : Option KVRead → KVWrite → Option γ)
    (hadd : ∀ s w, out (s.add w) = out s ++ (f (s.readByKey.lookup w.key) w).toList)
    {ws : List KVWrite} (h : (ws.map KVWrite.key).Nodup) (s : Split) :
    out (ws.foldl Split.add s) =
      out s ++ ws.filterMap fun w => f (s.readByKey.lookup w.key) w := by
  induction ws generalizing s with
  | nil => simp
  | cons w ws ih =>
      obtain ⟨hw, hrest⟩ := List.nodup_cons.mp h
      -- the step has touched the key of `w` only, which no later write has
      have hcongr : (ws.filterMap fun x => f ((s.add w).readByKey.lookup x.key) x) =
          ws.filterMap fun x => f (s.readByKey.lookup x.key) x := by
        apply List.filterMap_congr
        intro x hx
        rw [add_lookup_ne s fun heq => hw (heq ▸ List.mem_map_of_mem hx)]
      rw [List.foldl_cons, ih hrest, hcongr, hadd, List.append_assoc, List.filterMap_cons]
      cases f (s.readByKey.lookup w.key) w with
      | none => rfl
      | some c => rfl

theorem add_readWrites (s : Split) (w : KVWrite) :
    (s.add w).readWrites = s.readWrites ++ ((s.readByKey.lookup w.key).map fun r =>
      (⟨w.key, readVersion r, writtenValue w⟩ : Proto.ReadWrite)).toList := by
  cases hlook : s.readByKey.lookup w.key <;> simp [Split.add, hlook]

theorem add_blindWrites (s : Split) (w : KVWrite) :
    (s.add w).blindWrites = s.blindWrites ++
      (match s.readByKey.lookup w.key with
        | some _ => none
        | none => some (⟨w.key, writtenValue w⟩ : Proto.Write)).toList := by
  cases hlook : s.readByKey.lookup w.key <;> simp [Split.add, hlook]

end Loop

section Partition

variable {rws rws' : ReadWriteSet}

theorem split_readWrites (h : Distinct rws) :
    (split rws).readWrites = rws.writes.filterMap (toReadWrite rws.reads) := by
  exact foldl_add_collects Split.readWrites
    (fun r w => r.map fun r => ⟨w.key, readVersion r, writtenValue w⟩) add_readWrites h.writes _

theorem split_blindWrites (h : Distinct rws) :
    (split rws).blindWrites = rws.writes.filterMap (toBlindWrite rws.reads) := by
  exact foldl_add_collects Split.blindWrites
    (fun r w => match r with
      | some _ => none
      | none => some ⟨w.key, writtenValue w⟩) add_blindWrites h.writes _

/-- The reads that no write has taken. -/
def unwritten (rws : ReadWriteSet) : List KVRead :=
  rws.reads.filter fun r => r.key ∉ rws.writes.map KVWrite.key

theorem mem_split_readByKey (h : Distinct rws) {key : GoString} {r : KVRead} :
    (⟨key, r⟩ : Sigma fun _ : GoString => KVRead) ∈ (split rws).readByKey.entries ↔
      r ∈ unwritten rws ∧ r.key = key := by
  rw [← AList.mem_lookup_iff, Option.mem_def, split, foldl_add_lookup]
  change (if _ then _ else readOf rws.reads key) = some r ↔ _
  rw [unwritten, List.mem_filter, decide_eq_true_eq]
  by_cases hk : key ∈ rws.writes.map KVWrite.key
  · rw [if_pos hk]
    constructor
    · intro hr
      cases hr
    · rintro ⟨⟨_, hnot⟩, rfl⟩
      exact absurd hk hnot
  · rw [if_neg hk, readOf_eq_some h.reads]
    constructor
    · rintro ⟨hr, rfl⟩
      exact ⟨⟨hr, hk⟩, rfl⟩
    · rintro ⟨⟨hr, _⟩, hkey⟩
      exact ⟨hr, hkey⟩

/-- The entries left in the map are the unwritten reads, in some order. -/
theorem split_readByKey (h : Distinct rws) :
    ((split rws).readByKey.entries.map Sigma.snd).Perm (unwritten rws) := by
  have hkeys : ((split rws).readByKey.entries.map Sigma.snd).map KVRead.key =
      (split rws).readByKey.keys := by
    rw [List.map_map]
    apply List.map_congr_left
    rintro ⟨key, r⟩ he
    exact ((mem_split_readByKey h).mp he).2
  have hnodup : ((split rws).readByKey.entries.map Sigma.snd).Nodup := by
    apply List.Nodup.of_map KVRead.key
    rw [hkeys]
    exact (split rws).readByKey.keys_nodup
  have hnodup' : (unwritten rws).Nodup := (List.Nodup.of_map _ h.reads).filter _
  rw [List.perm_ext_iff_of_nodup hnodup hnodup']
  intro r
  rw [List.mem_map]
  constructor
  · rintro ⟨⟨key, r'⟩, he, rfl⟩
    exact ((mem_split_readByKey h).mp he).1
  · intro hr
    exact ⟨⟨r.key, r⟩, (mem_split_readByKey h).mpr ⟨hr, rfl⟩, rfl⟩

def toRead (r : KVRead) : Proto.Read := ⟨r.key, readVersion r⟩

theorem remainingReads_perm (h : Distinct rws) (rt : Runtime) :
    (remainingReads rt (split rws)).Perm ((unwritten rws).map toRead) := by
  have hrange := (rt.rangeMap_perm (split rws).readByKey.entries).map
    fun e : Sigma fun _ : GoString => KVRead => toRead e.2
  have hmap : ((split rws).readByKey.entries.map
      fun e : Sigma fun _ : GoString => KVRead => toRead e.2) =
        ((split rws).readByKey.entries.map Sigma.snd).map toRead := by
    rw [List.map_map]
    rfl
  rw [hmap] at hrange
  exact hrange.trans ((split_readByKey h).map toRead)

/-- Selecting elements that keep their key selects a sublist of the keys. -/
theorem map_filterMap_sublist {α β κ : Type} {f : α → Option β} {key : β → κ} {key' : α → κ}
    (hf : ∀ a b, f a = some b → key b = key' a) (l : List α) :
    ((l.filterMap f).map key).Sublist (l.map key') := by
  induction l with
  | nil => exact List.Sublist.slnil
  | cons a l ih =>
      rw [List.filterMap_cons]
      cases h : f a with
      | none => exact ih.cons _
      | some b =>
          rw [List.map_cons, List.map_cons, hf a b h]
          exact ih.cons_cons _

theorem toReadWrite_key {reads : List KVRead} (w : KVWrite) (rw : Proto.ReadWrite)
    (h : toReadWrite reads w = some rw) : rw.key = w.key := by
  obtain ⟨r, _, rfl⟩ := Option.map_eq_some_iff.mp h
  rfl

theorem toBlindWrite_key {reads : List KVRead} (w : KVWrite) (bw : Proto.Write)
    (h : toBlindWrite reads w = some bw) : bw.key = w.key := by
  simp only [toBlindWrite] at h
  split at h
  · cases h
  · cases h
    rfl

theorem toReadWrite_perm (h : Distinct rws) (hr : rws.reads.Perm rws'.reads) :
    toReadWrite rws.reads = toReadWrite rws'.reads := by
  funext w
  rw [toReadWrite, toReadWrite, readOf_perm h.reads hr]

theorem toBlindWrite_perm (h : Distinct rws) (hr : rws.reads.Perm rws'.reads) :
    toBlindWrite rws.reads = toBlindWrite rws'.reads := by
  funext w
  rw [toBlindWrite, toBlindWrite, readOf_perm h.reads hr]

theorem unwritten_perm (hr : rws.reads.Perm rws'.reads) (hw : rws.writes.Perm rws'.writes) :
    (unwritten rws).Perm (unwritten rws') := by
  have hmem : ∀ key, key ∈ rws.writes.map KVWrite.key ↔ key ∈ rws'.writes.map KVWrite.key :=
    fun key => (hw.map KVWrite.key).mem_iff
  rw [unwritten, unwritten]
  simp only [hmem]
  exact hr.filter _

theorem remainingReads_keys_nodup (h : Distinct rws) (rt : Runtime) :
    ((remainingReads rt (split rws)).map Proto.Read.key).Nodup := by
  rw [((remainingReads_perm h rt).map Proto.Read.key).nodup_iff, List.map_map]
  exact h.reads.sublist (List.filter_sublist.map KVRead.key)

/-- The transaction of a read/write set depends neither on the order of its reads
and writes nor on the choices of the runtime. -/
theorem buildTx_perm (h : Distinct rws) (hr : rws.reads.Perm rws'.reads)
    (hw : rws.writes.Perm rws'.writes) (rt rt' : Runtime) (ns : GoString) (nsVersion : ℕ)
    (metadata : List Bytes) :
    buildTx rt rws ns nsVersion metadata = buildTx rt' rws' ns nsVersion metadata := by
  have h' := h.perm hr hw
  have hreads : rt.sortBy Proto.Read.key (remainingReads rt (split rws)) =
      rt'.sortBy Proto.Read.key (remainingReads rt' (split rws')) := by
    -- both are permutations of the unwritten reads, with distinct keys
    apply rt.sortBy_eq_of_perm rt' _ _ (remainingReads_keys_nodup h rt)
    exact (remainingReads_perm h rt).trans (((unwritten_perm hr hw).map toRead).trans
      (remainingReads_perm h' rt').symm)
  have hreadWrites : rt.sortBy Proto.ReadWrite.key (split rws).readWrites =
      rt'.sortBy Proto.ReadWrite.key (split rws').readWrites := by
    rw [split_readWrites h, split_readWrites h', toReadWrite_perm h hr]
    apply rt.sortBy_eq_of_perm rt' _ (hw.filterMap _)
    exact h.writes.sublist (map_filterMap_sublist toReadWrite_key _)
  have hblindWrites : rt.sortBy Proto.Write.key (split rws).blindWrites =
      rt'.sortBy Proto.Write.key (split rws').blindWrites := by
    rw [split_blindWrites h, split_blindWrites h', toBlindWrite_perm h hr]
    apply rt.sortBy_eq_of_perm rt' _ (hw.filterMap _)
    exact h.writes.sublist (map_filterMap_sublist toBlindWrite_key _)
  simp only [buildTx, hreads, hreadWrites, hblindWrites]

end Partition

section Decode

variable {rws : ReadWriteSet}

/-- A read as it comes back: only the block number of its version is kept. -/
def decodedRead (r : KVRead) : KVRead := ⟨r.key, r.version.map fun v => ⟨v.blockNum, 0⟩⟩

/-- A write as it comes back: a delete is a write of nil. -/
def decodedWrite (w : KVWrite) : KVWrite := ⟨w.key, false, writtenValue w⟩

theorem decodeRead_toRead (r : KVRead) :
    FabricX.decodeRead (toRead r).key (toRead r).version = decodedRead r := by
  simp only [FabricX.decodeRead, toRead, readVersion, decodedRead, Option.map_map]
  rfl

/-- The reads that writes have taken are the reads of written keys. -/
theorem filterMap_readOf_perm (h : Distinct rws) :
    (rws.writes.filterMap fun w => readOf rws.reads w.key).Perm
      (rws.reads.filter fun r => r.key ∈ rws.writes.map KVWrite.key) := by
  have hkey : ∀ w r, readOf rws.reads w = some r → r.key = w :=
    fun w r hr => ((readOf_eq_some h.reads).mp hr).2
  have hnodup : (rws.writes.filterMap fun w => readOf rws.reads w.key).Nodup := by
    apply List.Nodup.of_map KVRead.key
    exact h.writes.sublist (map_filterMap_sublist (fun w r hr => hkey w.key r hr) _)
  have hnodup' : (rws.reads.filter fun r => r.key ∈ rws.writes.map KVWrite.key).Nodup :=
    (List.Nodup.of_map _ h.reads).filter _
  rw [List.perm_ext_iff_of_nodup hnodup hnodup']
  intro r
  rw [List.mem_filterMap, List.mem_filter, decide_eq_true_eq, List.mem_map]
  constructor
  · rintro ⟨w, hw, hr⟩
    obtain ⟨hmem, hkey⟩ := (readOf_eq_some h.reads).mp hr
    exact ⟨hmem, w, hw, hkey.symm⟩
  · rintro ⟨hmem, w, hw, hkey⟩
    exact ⟨w, hw, (readOf_eq_some h.reads).mpr ⟨hmem, hkey.symm⟩⟩

theorem decoded_readWrites (h : Distinct rws) :
    ((split rws).readWrites.map fun rw => FabricX.decodeRead rw.key rw.version) =
      (rws.writes.filterMap fun w => readOf rws.reads w.key).map decodedRead := by
  rw [split_readWrites h, List.map_filterMap, List.map_filterMap]
  apply List.filterMap_congr
  intro w _
  rw [toReadWrite, Option.map_map]
  cases hr : readOf rws.reads w.key with
  | none => rfl
  | some r =>
      have hkey : r.key = w.key := ((readOf_eq_some h.reads).mp hr).2
      have hdec := decodeRead_toRead r
      simp only [toRead, hkey] at hdec
      simp [hdec]

/-- Selecting and converting is filtering and converting. -/
theorem map_filterMap_eq {α β γ : Type} {f : α → Option β} {g : β → γ} {p : α → Bool} {k : α → γ}
    (hf : ∀ a, (f a).map g = if p a then some (k a) else none) (l : List α) :
    (l.filterMap f).map g = (l.filter p).map k := by
  induction l with
  | nil => rfl
  | cons a l ih =>
      have ha := hf a
      rw [List.filterMap_cons, List.filter_cons]
      cases hfa : f a with
      | none =>
          rw [hfa] at ha
          by_cases hp : p a = true
          · simp [hp] at ha
          · rw [if_neg hp]
            exact ih
      | some b =>
          rw [hfa] at ha
          by_cases hp : p a = true
          · have hb : g b = k a := by simpa [hp] using ha
            rw [if_pos hp, List.map_cons, List.map_cons, ih, hb]
          · simp [hp] at ha

theorem decoded_blindWrites (h : Distinct rws) :
    ((split rws).blindWrites.map fun bw => FabricX.decodeWrite bw.key bw.value) =
      (rws.writes.filter fun w => (readOf rws.reads w.key).isNone).map decodedWrite := by
  rw [split_blindWrites h]
  apply map_filterMap_eq
  intro w
  cases hr : readOf rws.reads w.key <;> simp [toBlindWrite, hr, FabricX.decodeWrite, decodedWrite]

theorem decoded_writes_of_readWrites (h : Distinct rws) :
    ((split rws).readWrites.map fun rw => FabricX.decodeWrite rw.key rw.value) =
      (rws.writes.filter fun w => !(readOf rws.reads w.key).isNone).map decodedWrite := by
  rw [split_readWrites h]
  apply map_filterMap_eq
  intro w
  cases hr : readOf rws.reads w.key <;> simp [toReadWrite, hr, FabricX.decodeWrite, decodedWrite]

/-- The reads that stay reads come back from the built namespace. -/
theorem decoded_readsOnly (h : Distinct rws) (rt : Runtime) :
    ((rt.sortBy Proto.Read.key (remainingReads rt (split rws))).map
      fun r => FabricX.decodeRead r.key r.version).Perm ((unwritten rws).map decodedRead) := by
  have hperm := ((rt.sortBy_perm Proto.Read.key _).trans (remainingReads_perm h rt)).map
    fun r : Proto.Read => FabricX.decodeRead r.key r.version
  rw [List.map_map] at hperm
  simpa only [Function.comp_def, decodeRead_toRead] using hperm

theorem unwritten_append_written (rws : ReadWriteSet) :
    (unwritten rws ++ rws.reads.filter fun r => r.key ∈ rws.writes.map KVWrite.key).Perm
      rws.reads := by
  have hfilter := List.filter_append_perm
    (fun r => decide (r.key ∈ rws.writes.map KVWrite.key)) rws.reads
  apply List.perm_append_comm.trans
  simpa only [unwritten, decide_not] using hfilter

/-- Reading a built namespace gives the read/write set back, up to order: no read
or write is lost, doubled or swapped. -/
theorem decodeNamespaces_buildTx (h : Distinct rws) (rt : Runtime) (ns : GoString) (nsVersion : ℕ)
    (metadata : List Bytes) :
    ∃ rws', FabricX.decodeNamespaces (buildTx rt rws ns nsVersion metadata).namespaces =
        [⟨ns, rws'⟩] ∧
      rws'.reads.Perm (rws.reads.map decodedRead) ∧
      rws'.writes.Perm (rws.writes.map decodedWrite) := by
  refine ⟨_, rfl, ?_, ?_⟩
  · have hwritten : ((rt.sortBy Proto.ReadWrite.key (split rws).readWrites).map
        fun rw => FabricX.decodeRead rw.key rw.version).Perm
          ((rws.reads.filter fun r => r.key ∈ rws.writes.map KVWrite.key).map decodedRead) := by
      refine ((rt.sortBy_perm Proto.ReadWrite.key _).map _).trans ?_
      rw [decoded_readWrites h]
      exact (filterMap_readOf_perm h).map decodedRead
    apply ((decoded_readsOnly h rt).append hwritten).trans
    rw [← List.map_append]
    exact (unwritten_append_written rws).map decodedRead
  · refine (((rt.sortBy_perm Proto.Write.key _).map _).append
      ((rt.sortBy_perm Proto.ReadWrite.key _).map _)).trans ?_
    rw [decoded_blindWrites h, decoded_writes_of_readWrites h, ← List.map_append]
    exact (List.filter_append_perm _ _).map decodedWrite

end Decode

end FabricXSdk.Endorsement.FabricX
