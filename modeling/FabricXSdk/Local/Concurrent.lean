import FabricXSdk.Lib.Transition
import FabricXSdk.Local.Submit
import Mathlib.Data.List.Permutation

/-!
# Concurrent local submissions

Any number of submissions run on one database. Reading the block number, checking the
reads and storing the block are three steps, each atomic by itself, and nothing is held
from one to the next. A run is serializable if no block is stored that was numbered
before another one was: the submissions that return nil then come out as if each had run
alone, in the order in which they stored their blocks.

## Implementation notes

The calls are all there from the start, and one that starts late is one that takes its
first step late. Packaging and parsing touch nothing shared, and are one step here.
-/

namespace FabricXSdk.Local

open Golang Blocks State Atomic Transition

section Model

variable {E : Type}

/-- How far a call of `Submit` has come. -/
inductive Progress
  | start
  | prepared (tx : Transaction)
  | numbered (tx : Transaction) (blockNum : ℕ)
  | checked (tx : Transaction) (blockNum : ℕ)
  | done (result : Outcome Unit)

structure Call (E : Type) where
  submitter : LocalSubmitter E
  endorsement : E
  progress : Progress

structure System (E : Type) where
  db : Database
  calls : List (Call E)

/-- The next step of a call, with the tables after it. -/
def Call.next (channel : GoString) (f : Faults) (db : Database) (call : Call E) :
    Option (Progress × Database) :=
  match call.progress with
  | .start =>
      match prepare call.submitter call.endorsement with
      | .panic => some (.done .panic, db)
      | .error err => some (.done (.error err), db)
      | .ok tx => some (.prepared tx, db)
  | .prepared tx =>
      match blockNumber channel f.number db with
      | .error err => some (.done (.error err), db)
      | .ok blockNum => some (.numbered tx blockNum, db)
  | .numbered tx blockNum =>
      match checkMVCC call.submitter (recordGetter channel f db) tx with
      | .panic => some (.done .panic, db)
      | .error err => some (.done (.error err), db)
      | .ok _ => some (.checked tx blockNum, db)
  | .checked tx blockNum =>
      match updateWorldState channel f.driver db (blockOf (blockNum + 1) tx) with
      | .error err => some (.done (.error err), db)
      | .ok db' => some (.done (.ok ()), db')
  | .done _ => none

/-- One of the calls takes its next step. -/
inductive Step (channel : GoString) : System E → Call E × Faults → System E → Prop
  | next (pre post : List (Call E)) {call : Call E} {f : Faults} {db db' : Database}
      {progress : Progress} (h : call.next channel f db = some (progress, db')) :
      Step channel ⟨db, pre ++ call :: post⟩ (call, f)
        ⟨db', pre ++ { call with progress := progress } :: post⟩

/-- The calls of these submissions, before their first step. -/
def System.init (db : Database) (submissions : List (LocalSubmitter E × E)) : System E :=
  ⟨db, submissions.map fun p => ⟨p.1, p.2, .start⟩⟩

def Call.succeeded (call : Call E) : Bool :=
  match call.progress with
  | .done (.ok _) => true
  | _ => false

/-- The submissions that have returned nil. -/
def System.returned (s : System E) : List (LocalSubmitter E × E) :=
  (s.calls.filter Call.succeeded).map fun call => (call.submitter, call.endorsement)

/-- The tables after submissions that run one after the other and all return nil. -/
def serially (channel : GoString) (db : Database) :
    List (LocalSubmitter E × E) → Option Database
  | [] => some db
  | (s, e) :: rest =>
      match submit channel s Faults.none db e with
      | (.ok _, db') => serially channel db' rest
      | _ => none

/-- The value of a key, if it has one. -/
def valueOf (channel : GoString) (db : Database) (ns key : GoString) : Option Bytes :=
  match State.get channel none db ns key with
  | .ok (some rec) => if rec.isDelete then none else some rec.value
  | _ => none

/-- Some order of the submissions that returned nil, run one after the other, has them all
pass and ends with the same values. -/
def Serializable (channel : GoString) (db₀ : Database) (s : System E) : Prop :=
  ∃ order db', order.Perm s.returned ∧ serially channel db₀ order = some db' ∧
    ∀ ns key, valueOf channel db' ns key = valueOf channel s.db ns key

/-- A block that the store takes is still the next one: `BlockNumber` is what it was when
the call read it. -/
def StillNext (channel : GoString) (s : System E) (a : Call E × Faults) : Prop :=
  ∀ tx blockNum, a.1.progress = .checked tx blockNum →
    ∀ db', updateWorldState channel a.2.driver s.db (blockOf (blockNum + 1) tx) = .ok db' →
      blockNumber channel none s.db = .ok blockNum

end Model

section Height

variable {E : Type} {s : LocalSubmitter E} {channel : GoString} {f : Faults} {db db' : Database}
  {tx : Transaction} {n : ℕ}

theorem height_update {driver : Driver Text} {b : Block}
    (h : updateWorldState channel driver db b = .ok db') :
    height channel db' = max (height channel db) b.number := by
  obtain ⟨_, _, rfl⟩ := updateWorldState_ok h
  rw [height, height, applied_progress]
  cases db.channelProgress.lookup channel with
  | none => exact (Nat.zero_max _).symm
  | some last => rfl

/-- A check that passes had no failing read. -/
theorem checkMVCC_none (h : checkMVCC s (recordGetter channel f db) tx = .ok ()) :
    checkMVCC s (recordGetter channel Faults.none db) tx = .ok () := by
  rw [checkMVCC_eq_ok] at h ⊢
  intro r hr
  obtain ⟨found, hfound, hmatch⟩ := checkRead_eq_none.mp (h r hr)
  refine checkRead_eq_none.mpr ⟨found, ?_, hmatch⟩
  simp only [newMVCCValidator, recordGetter, State.get, query] at hfound
  split at hfound
  · cases hfound
  · exact hfound

end Height

section Serial

variable {E : Type} {channel : GoString} {db₀ db db' : Database} {call : Call E} {f : Faults}
  {progress : Progress}

theorem serially_concat {order : List (LocalSubmitter E × E)} {s : LocalSubmitter E} {e : E}
    (h : serially channel db₀ order = some db)
    (hs : submit channel s Faults.none db e = (.ok (), db')) :
    serially channel db₀ (order ++ [(s, e)]) = some db' := by
  induction order generalizing db₀ with
  | nil =>
      cases h
      simp only [List.nil_append, serially, hs]
  | cons p rest ih =>
      rw [serially] at h
      rw [List.cons_append, serially]
      split at h
      · exact ih h
      · cases h

/-- What is known of a call while it runs. The check of a call that has passed still holds
unless the store has moved on since the call read its number. -/
def Fits (channel : GoString) (db : Database) (call : Call E) : Prop :=
  match call.progress with
  | .start => True
  | .prepared tx => prepare call.submitter call.endorsement = .ok tx
  | .numbered tx n =>
      prepare call.submitter call.endorsement = .ok tx ∧ n ≤ height channel db
  | .checked tx n =>
      prepare call.submitter call.endorsement = .ok tx ∧ n ≤ height channel db ∧
        (height channel db = n →
          checkMVCC call.submitter (recordGetter channel Faults.none db) tx = .ok ())
  | .done _ => True

/-- The store moves on. -/
theorem Fits.mono (h : Fits channel db call) (hlt : height channel db < height channel db') :
    Fits channel db' call := by
  unfold Fits at h ⊢
  split at h
  · trivial
  · exact h
  · exact ⟨h.1, h.2.trans hlt.le⟩
  · refine ⟨h.1, h.2.1.trans hlt.le, fun heq => ?_⟩
    have := h.2.1
    omega
  · trivial

theorem succeeded_of_next (h : call.next channel f db = some (progress, db')) :
    call.succeeded = false := by
  unfold Call.next at h
  unfold Call.succeeded
  split
  · rename_i hp
    simp [hp] at h
  · rfl

/-- A step stores a block, or leaves the tables alone. -/
theorem next_cases (h : call.next channel f db = some (progress, db')) :
    (∃ tx n, call.progress = .checked tx n ∧ progress = .done (.ok ()) ∧
      updateWorldState channel f.driver db (blockOf (n + 1) tx) = .ok db') ∨
    (db' = db ∧ ({ call with progress := progress } : Call E).succeeded = false ∧
      (Fits channel db call → Fits channel db { call with progress := progress })) := by
  unfold Call.next at h
  split at h
  · refine Or.inr ?_
    split at h
    · cases h
      exact ⟨rfl, rfl, fun _ => trivial⟩
    · cases h
      exact ⟨rfl, rfl, fun _ => trivial⟩
    · rename_i htx
      cases h
      exact ⟨rfl, rfl, fun _ => htx⟩
  · rename_i hp
    refine Or.inr ?_
    split at h
    · cases h
      exact ⟨rfl, rfl, fun _ => trivial⟩
    · rename_i hn
      cases h
      refine ⟨rfl, rfl, fun hfits => ?_⟩
      simp only [Fits, hp] at hfits
      exact ⟨hfits, (blockNumber_eq_ok.mp hn).2.ge⟩
  · rename_i hp
    refine Or.inr ?_
    split at h
    · cases h
      exact ⟨rfl, rfl, fun _ => trivial⟩
    · cases h
      exact ⟨rfl, rfl, fun _ => trivial⟩
    · rename_i hcheck
      cases h
      refine ⟨rfl, rfl, fun hfits => ?_⟩
      simp only [Fits, hp] at hfits
      exact ⟨hfits.1, hfits.2, fun _ => checkMVCC_none hcheck⟩
  · rename_i tx n hp
    split at h
    · cases h
      exact Or.inr ⟨rfl, rfl, fun _ => trivial⟩
    · rename_i hu
      cases h
      exact Or.inl ⟨tx, n, hp, rfl, hu⟩
  · cases h

/-- The store is where the submissions that have returned nil, run one after the other in
some order, would have brought it. -/
structure Inv (channel : GoString) (db₀ : Database) (s : System E) : Prop where
  serial : ∃ order, order.Perm s.returned ∧ serially channel db₀ order = some s.db
  fits : ∀ call ∈ s.calls, Fits channel s.db call

theorem inv_init (channel : GoString) (db₀ : Database)
    (submissions : List (LocalSubmitter E × E)) :
    Inv channel db₀ (System.init db₀ submissions) where
  serial := by
    have hnone : (System.init db₀ submissions).returned = [] := by
      rw [System.returned, System.init, List.map_eq_nil_iff, List.filter_eq_nil_iff]
      intro call hcall
      obtain ⟨p, _, rfl⟩ := List.mem_map.mp hcall
      exact Bool.false_ne_true
    exact ⟨[], by rw [hnone], rfl⟩
  fits := by
    intro call hcall
    obtain ⟨p, _, rfl⟩ := List.mem_map.mp hcall
    trivial

/-- Storing a block that is still the next one is what the submission does alone. -/
theorem submit_of_stillNext {tx : Transaction} {n : ℕ} (hfits : Fits channel db call)
    (hp : call.progress = .checked tx n) (hn : blockNumber channel none db = .ok n)
    (hu : updateWorldState channel f.driver db (blockOf (n + 1) tx) = .ok db') :
    submit channel call.submitter Faults.none db call.endorsement = (.ok (), db') := by
  simp only [Fits, hp] at hfits
  obtain ⟨hprepare, _, hcheck⟩ := hfits
  have hfree := updateWorldState_free_iff.mpr (updateWorldState_ok hu)
  exact (submit_eq_ok hprepare).mpr ⟨n, hn, hcheck (blockNumber_eq_ok.mp hn).2, hfree⟩

/-- A change of one call, and of the tables under the others. -/
theorem fits_replace {pre post : List (Call E)} {call' : Call E}
    (h : ∀ c ∈ pre ++ call :: post, Fits channel db c) (hcall' : Fits channel db' call')
    (hothers : ∀ c : Call E, Fits channel db c → Fits channel db' c) :
    ∀ c ∈ pre ++ call' :: post, Fits channel db' c := by
  rw [List.forall_mem_append, List.forall_mem_cons] at h ⊢
  exact ⟨fun c hc => hothers c (h.1 c hc), hcall', fun c hc => hothers c (h.2.2 c hc)⟩

theorem step_inv {s t : System E} {a : Call E × Faults} (h : Inv channel db₀ s)
    (hgood : StillNext channel s a) (hstep : Step channel s a t) : Inv channel db₀ t := by
  obtain @⟨pre, post, call, f, db, db', progress, hnext⟩ := hstep
  obtain ⟨order, hperm, hserial⟩ := h.serial
  have hbefore := succeeded_of_next hnext
  have hfits := h.fits call (by simp)
  rcases next_cases hnext with ⟨tx, n, hp, rfl, hu⟩ | ⟨rfl, hafter, hkeep⟩
  · have hn := hgood tx n hp db' hu
    have hheight := height_update hu
    rw [(blockNumber_eq_ok.mp hn).2] at hheight
    have hlt : height channel db < height channel db' := by
      rw [hheight, (blockNumber_eq_ok.mp hn).2]
      exact Nat.lt_of_lt_of_le (Nat.lt_succ_self n) (Nat.le_max_right n (n + 1))
    refine ⟨⟨order ++ [(call.submitter, call.endorsement)], ?_,
      serially_concat hserial (submit_of_stillNext hfits hp hn hu)⟩,
      fits_replace h.fits trivial fun c hc => hc.mono hlt⟩
    -- the call moves from the waiting calls to those that have returned
    simp only [System.returned, List.filter_append, List.filter_cons, hbefore,
      List.map_append] at hperm ⊢
    simp only [Call.succeeded, Bool.false_eq_true, if_false, if_true, List.map_cons] at hperm ⊢
    exact (hperm.append_right _).trans
      ((List.perm_append_singleton _ _).trans List.perm_middle.symm)
  · refine ⟨⟨order, ?_, hserial⟩, fits_replace h.fits (hkeep hfits) fun _ => id⟩
    simp only [System.returned, List.filter_append, List.filter_cons, hbefore, hafter] at hperm ⊢
    exact hperm

/-- In every run whose blocks are all still the next one when they are stored, the
submissions that have returned nil are serializable, in every state of the run. -/
theorem submissions_serializable {submissions : List (LocalSubmitter E × E)} {s : System E}
    (h : Reaches (Step channel) (StillNext channel) (System.init db₀ submissions) s) :
    Serializable channel db₀ s := by
  have hinv := h.invariant (inv_init channel db₀ submissions) fun _ _ _ => step_inv
  obtain ⟨order, hperm, hserial⟩ := hinv.serial
  exact ⟨order, s.db, hperm, hserial, fun _ _ => rfl⟩

end Serial

section Sample

/-- A submitter whose transaction reads one key, as absent, and writes another. -/
def sampleSkew (read write : Byte) : LocalSubmitter Unit :=
  sampleSubmitter [⟨[110], ⟨[⟨[read], none⟩], [⟨[write], false, [1]⟩]⟩⟩]

/-- The transaction of such a submitter. -/
def skewTx (read write : Byte) : Transaction :=
  (bareTx [⟨[110], ⟨[⟨[read], none⟩], [⟨[write], false, [1]⟩]⟩⟩]).setStatus .committed 0 []

/-- One submission reads `"x"` and writes `"y"`, the other reads `"y"` and writes `"x"`. -/
def samplePair : List (LocalSubmitter Unit × Unit) :=
  [(sampleSkew 120 121, ()), (sampleSkew 121 120, ())]

def sampleSystem (db : Database) (p q : Progress) : System Unit :=
  ⟨db, [⟨sampleSkew 120 121, (), p⟩, ⟨sampleSkew 121 120, (), q⟩]⟩

theorem sample_step_left {db db' : Database} {p p' q : Progress}
    (h : Call.next [99] Faults.none db ⟨sampleSkew 120 121, (), p⟩ = some (p', db')) :
    Step [99] (sampleSystem db p q) (⟨sampleSkew 120 121, (), p⟩, Faults.none)
      (sampleSystem db' p' q) :=
  Step.next [] [_] h

theorem sample_step_right {db db' : Database} {p q q' : Progress}
    (h : Call.next [99] Faults.none db ⟨sampleSkew 121 120, (), q⟩ = some (q', db')) :
    Step [99] (sampleSystem db p q) (⟨sampleSkew 121 120, (), q⟩, Faults.none)
      (sampleSystem db' p q') :=
  Step.next [_] [] h

/-- The tables after one block, and after both. -/
def sampleFirst : Database := applied [99] Database.empty (blockOf 1 (skewTx 120 121))

def sampleBoth : Database := applied [99] sampleFirst (blockOf 1 (skewTx 121 120))

/-- The first submission runs alone while the second has not asked for its number. -/
theorem submissions_serializable_sample :
    Reaches (Step [99]) (StillNext [99]) (System.init Database.empty samplePair)
      (sampleSystem sampleFirst (.done (.ok ())) (.prepared (skewTx 121 120))) ∧
    Serializable [99] Database.empty
      (sampleSystem sampleFirst (.done (.ok ())) (.prepared (skewTx 121 120))) := by
  have hnot : ∀ {s : System Unit} {call : Call Unit},
      (∀ tx n, call.progress ≠ .checked tx n) → StillNext [99] s (call, Faults.none) :=
    fun h tx n hp => absurd hp (h tx n)
  have hrun : Reaches (Step [99]) (StillNext [99]) (System.init Database.empty samplePair)
      (sampleSystem sampleFirst (.done (.ok ())) (.prepared (skewTx 121 120))) := by
    refine Reaches.step (t := sampleSystem Database.empty (.checked (skewTx 120 121) 0)
      (.prepared (skewTx 121 120))) ?_ ?_ (sample_step_left rfl)
    · refine Reaches.step (t := sampleSystem Database.empty (.numbered (skewTx 120 121) 0)
        (.prepared (skewTx 121 120))) ?_ (hnot (by simp)) (sample_step_left rfl)
      refine Reaches.step (t := sampleSystem Database.empty (.prepared (skewTx 120 121))
        (.prepared (skewTx 121 120))) ?_ (hnot (by simp)) (sample_step_left rfl)
      refine Reaches.step (t := sampleSystem Database.empty (.prepared (skewTx 120 121))
        .start) ?_ (hnot (by simp)) (sample_step_right rfl)
      exact Reaches.refl.step (hnot (by simp)) (sample_step_left rfl)
    · rintro tx n ⟨⟩ db' _
      rfl
  exact ⟨hrun, submissions_serializable hrun⟩

/-- Both submissions are checked before either stores its block. Both return nil, and
whichever is put first, the other does not pass after it. -/
theorem submissions_write_skew :
    Reaches (Step [99]) Free (System.init Database.empty samplePair)
      (sampleSystem sampleBoth (.done (.ok ())) (.done (.ok ()))) ∧
    ¬ Serializable [99] Database.empty
      (sampleSystem sampleBoth (.done (.ok ())) (.done (.ok ()))) := by
  constructor
  · have h₁ : Reaches (Step [99]) Free (System.init Database.empty samplePair)
        (sampleSystem Database.empty (.numbered (skewTx 120 121) 0) .start) :=
      ((Reaches.refl.step trivial (sample_step_left rfl)).step trivial (sample_step_left rfl))
    have h₂ : Reaches (Step [99]) Free (System.init Database.empty samplePair)
        (sampleSystem Database.empty (.numbered (skewTx 120 121) 0)
          (.numbered (skewTx 121 120) 0)) :=
      (h₁.step trivial (sample_step_right rfl)).step trivial (sample_step_right rfl)
    have h₃ : Reaches (Step [99]) Free (System.init Database.empty samplePair)
        (sampleSystem Database.empty (.checked (skewTx 120 121) 0)
          (.checked (skewTx 121 120) 0)) :=
      (h₂.step trivial (sample_step_left rfl)).step trivial (sample_step_right rfl)
    exact (h₃.step trivial (sample_step_left rfl)).step trivial (sample_step_right rfl)
  · rintro ⟨order, db', hperm, hserial, _⟩
    rcases List.perm_pair.mp hperm with rfl | rfl
    · cases hserial
    · cases hserial

end Sample

end FabricXSdk.Local
