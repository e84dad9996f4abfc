import FabricXSdk.Lib.RoundRobin
import FabricXSdk.Lib.Transition
import FabricXSdk.State.QueryService

/-!
# Views over several connections

A `GRPCClient` spreads its calls over several connections, which may lead to different
instances of the query service. It opens a view over the next connection in turn, and
remembers which one that was until the view is ended. Snapshots of a store read through
their views, from any number of goroutines.

## Implementation notes

Connections are known by their positions. A task is a call of `Store.Snapshot`, of
`snapshot.Get` or `Store.Get`, or of `snapshot.Close`. Each access to the counter, to the map
of views and to a cache is one action, and so is the arrival of an answer. The answer to
`BeginView` is stored in the same action, since nobody else knows the view yet. A snapshot is
kept with the connection that opened its view, and with whether `Close` was called on it.
-/

namespace FabricXSdk.State.QueryService

open Golang Blocks Transition

section Model

structure GRPCClient where
  /-- The number of connections. -/
  clients : ℕ
  next : ℕ
  views : GoMap ℕ

/-- `NewGRPCClient`, where all connections can be made. -/
def newGRPCClient (conns : Int) : Except Text GRPCClient :=
  if conns < 1 then .error [.lit "queryservice: need at least one connection"]
  else .ok ⟨conns.toNat, 0, ∅⟩

/-- The next connection, round-robin. -/
def GRPCClient.pick (c : GRPCClient) : ℕ × GRPCClient :=
  ((c.next + 1) % 2 ^ 64 % c.clients, { c with next := (c.next + 1) % 2 ^ 64 })

/-- The rows of a namespace in an answer of the query service. -/
def rowsOf (ns : GoString) (namespaces : List (GoString × List Row)) : List Row :=
  (namespaces.filter fun rns => rns.1 = ns).flatMap Prod.snd

/-- The client as `Store.get` meets it, when the query service gives this answer. -/
def answering (res : Except Text (List (GoString × List Row))) : Client :=
  ⟨.error [], fun _ ns _ => res.map (rowsOf ns)⟩

/-- A snapshot that `Store.Snapshot` has returned. -/
structure Opened where
  snapshot : Snapshot
  conn : ℕ
  closing : Bool

/-- The snapshot with a record in its cache. -/
def Opened.cache (o : Opened) (ck : GoString) (rec : Option WriteRecord) : Opened :=
  { o with snapshot := { o.snapshot with cache := o.snapshot.cache.insert ck rec } }

/-- What the tasks share, and the connections picked so far. -/
structure Shared where
  client : GRPCClient
  snapshots : List Opened
  picks : List ℕ

/-- A read of one key, in a snapshot or of the latest state. -/
structure Read where
  snap : Option ℕ
  viewID : GoString
  ns : GoString
  key : GoString

inductive Task
  | beginPick
  | beginView (conn : ℕ)
  | snapshotReturned (err : Option Text)
  | cacheLoad (snap : ℕ) (ns key : GoString)
  | viewsLoad (q : Read)
  | pick (q : Read)
  | getRows (q : Read) (conn : ℕ)
  | cacheStore (q : Read) (rec : Option WriteRecord)
  | returned (q : Read) (result : Except Text (Option WriteRecord))
  | endLoad (snap : ℕ) (viewID : GoString)
  | endPick (snap : ℕ) (viewID : GoString)
  | endView (snap : ℕ) (viewID : GoString) (conn : ℕ)
  | viewsDelete (snap : ℕ) (viewID : GoString) (err : Option Text)
  | closeReturned (snap : ℕ) (err : Option Text)

/-- What the query service answers, for the actions that wait for it. -/
inductive Answer
  | none
  | view (res : Except Text GoString)
  | rows (res : Except Text (List (GoString × List Row)))
  | ended (err : Option Text)

def Shared.pick (h : Shared) : ℕ × Shared :=
  (h.client.pick.1, { h with client := h.client.pick.2, picks := h.picks ++ [h.client.pick.1] })

/-- The next action of a task. -/
def Task.next (answer : Answer) (h : Shared) : Task → Option (Shared × Task)
  | .beginPick => some (h.pick.2, .beginView h.pick.1)
  | .beginView conn =>
      match answer with
      | .view (.error err) => some (h, .snapshotReturned (some err))
      | .view (.ok viewID) =>
          some ({ h with
            client := { h.client with views := h.client.views.insert viewID conn }
            snapshots := h.snapshots ++ [⟨⟨viewID, ∅⟩, conn, false⟩] }, .snapshotReturned none)
      | _ => none
  | .snapshotReturned _ => none
  | .cacheLoad snap ns key =>
      h.snapshots[snap]?.map fun o =>
        match o.snapshot.cache.lookup (cacheKey ns key) with
        | some rec => (h, .returned ⟨some snap, o.snapshot.viewID, ns, key⟩ (.ok rec))
        | none => (h, .viewsLoad ⟨some snap, o.snapshot.viewID, ns, key⟩)
  | .viewsLoad q =>
      match h.client.views.lookup q.viewID with
      | some conn => some (h, .getRows q conn)
      | none => some (h, .pick q)
  | .pick q => some (h.pick.2, .getRows q h.pick.1)
  | .getRows q _ =>
      match answer with
      | .rows res =>
          match QueryService.get (answering res) q.viewID q.ns q.key, q.snap with
          | .error err, _ => some (h, .returned q (.error err))
          | .ok rec, none => some (h, .returned q (.ok rec))
          | .ok rec, some _ => some (h, .cacheStore q rec)
      | _ => none
  | .cacheStore q rec =>
      (q.snap.bind fun snap => h.snapshots[snap]?.map fun o => (snap, o)).map fun p =>
        ({ h with snapshots := h.snapshots.set p.1 (p.2.cache (cacheKey q.ns q.key) rec) },
          .returned q (.ok rec))
  | .returned _ _ => none
  | .endLoad snap viewID =>
      match h.client.views.lookup viewID with
      | some conn => some (h, .endView snap viewID conn)
      | none => some (h, .endPick snap viewID)
  | .endPick snap viewID => some (h.pick.2, .endView snap viewID h.pick.1)
  | .endView snap viewID _ =>
      match answer with
      | .ended err => some (h, .viewsDelete snap viewID err)
      | _ => none
  | .viewsDelete snap viewID err =>
      some ({ h with client := { h.client with views := h.client.views.erase viewID } },
        .closeReturned snap err)
  | .closeReturned _ _ => none

structure System where
  shared : Shared
  tasks : List Task

/-- A store on a client that was just made. -/
def System.init (c : GRPCClient) : System := ⟨⟨c, [], []⟩, []⟩

inductive Label
  | snapshot
  | get (snap : ℕ) (ns key : GoString)
  /-- `Store.Get`, which reads without a view. -/
  | latest (ns key : GoString)
  | close (snap : ℕ)
  | act (k : ℕ) (answer : Answer)

def System.step (s : System) : Label → Option System
  | .snapshot => some { s with tasks := s.tasks ++ [.beginPick] }
  | .get snap ns key =>
      if snap < s.shared.snapshots.length then
        some { s with tasks := s.tasks ++ [.cacheLoad snap ns key] }
      else none
  | .latest ns key => some { s with tasks := s.tasks ++ [.viewsLoad ⟨none, [], ns, key⟩] }
  | .close snap =>
      s.shared.snapshots[snap]?.map fun o =>
        ⟨{ s.shared with snapshots := s.shared.snapshots.set snap { o with closing := true } },
          s.tasks ++ [.endLoad snap o.snapshot.viewID]⟩
  | .act k answer =>
      (s.tasks[k]?.bind (Task.next answer s.shared)).map fun next =>
        ⟨next.1, s.tasks.set k next.2⟩

def Step (s : System) (a : Label) (s' : System) : Prop := s.step a = some s'

end Model

section Spec

/-- The records of the views, by the connection that a view was opened over. -/
abbrev Served := ℕ → GoString → GoString → GoString → Option Row

/-- What is asked of an answer to a task: a view that is opened has an id of its own, and the
instance that opened a view answers from it until the view is ended. Nothing is asked of the
other instances. -/
def Answers (served : Served) (h : Shared) : Task → Answer → Prop
  | .beginView _, .view (.ok viewID) =>
      viewID ≠ [] ∧ ∀ o ∈ h.snapshots, o.snapshot.viewID ≠ viewID
  | .getRows q conn, .rows (.ok res) =>
      ∀ o ∈ h.snapshots, o.snapshot.viewID = q.viewID → o.conn = conn → o.closing = false →
        (rowsOf q.ns res).find? (fun r => r.key = q.key) = served conn q.viewID q.ns q.key
  | _, _ => True

/-- The query service does its part, and the namespaces read have no zero byte. -/
def Serves (served : Served) (s : System) : Label → Prop
  | .get _ ns _ => 0 ∉ ns
  | .act k answer => ∀ task, s.tasks[k]? = some task → Answers served s.shared task answer
  | _ => True

/-- What a snapshot has to return for a key. -/
def Opened.recordIn (served : Served) (o : Opened) (ns key : GoString) : Option WriteRecord :=
  (served o.conn o.snapshot.viewID ns key).map (record ns key)

/-- The snapshot reads one view, at the instance that opened it. -/
structure ReadsOneView (served : Served) (s : System) (snap : ℕ) (o : Opened) : Prop where
  /-- The calls that are on their way were sent over the connection of the view. -/
  routed : ∀ (k : ℕ) q conn, s.tasks[k]? = some (.getRows q conn) → q.snap = some snap →
    q.viewID = o.snapshot.viewID ∧ conn = o.conn
  /-- The records returned are those of the view. -/
  exact : ∀ (k : ℕ) q rec, s.tasks[k]? = some (.returned q (.ok rec)) → q.snap = some snap →
    rec = o.recordIn served q.ns q.key

end Spec

section Tasks

variable {served : Served} {h h' : Shared} {answer : Answer} {task task' : Task} {q : Read}
  {rec : Option WriteRecord} {o o' : Opened} {snap : ℕ}

theorem cacheKey_inj {ns ns' key key' : GoString} (hns : 0 ∉ ns) (hns' : 0 ∉ ns')
    (hkey : cacheKey ns key = cacheKey ns' key') : ns = ns' ∧ key = key' := by
  rw [cacheKey, cacheKey, List.append_eq_append_iff] at hkey
  rcases hkey with ⟨c, rfl, hc⟩ | ⟨c, rfl, hc⟩
  · cases c with
    | nil => exact ⟨(List.append_nil _).symm, (List.cons.inj hc).2⟩
    | cons b c =>
        obtain ⟨rfl, _⟩ := List.cons.inj hc
        exact absurd (List.mem_append_right _ List.mem_cons_self) hns'
  · cases c with
    | nil => exact ⟨List.append_nil _, (List.cons.inj hc).2.symm⟩
    | cons b c =>
        obtain ⟨rfl, _⟩ := List.cons.inj hc
        exact absurd (List.mem_append_right _ List.mem_cons_self) hns

/-- The read is in a snapshot through its view. -/
def Read.Ok (h : Shared) (q : Read) : Prop :=
  ∀ snap, q.snap = some snap → 0 ∉ q.ns ∧
    ∃ o, h.snapshots[snap]? = some o ∧ o.snapshot.viewID = q.viewID

/-- Something that holds as long as `Close` was not called on the snapshot. -/
def Read.WhileOpen (h : Shared) (q : Read) (P : Opened → Prop) : Prop :=
  ∀ snap o, q.snap = some snap → h.snapshots[snap]? = some o → o.closing = false → P o

/-- The record is that of the view. -/
def Read.Gets (served : Served) (h : Shared) (q : Read) (rec : Option WriteRecord) : Prop :=
  q.Ok h ∧ q.WhileOpen h fun o => rec = o.recordIn served q.ns q.key

/-- `Close` was called on the snapshot of this view. -/
def Closing (h : Shared) (snap : ℕ) (viewID : GoString) : Prop :=
  ∃ o, h.snapshots[snap]? = some o ∧ o.snapshot.viewID = viewID ∧ o.closing = true

/-- What a task knows at its place. -/
def Task.Ok (served : Served) (h : Shared) : Task → Prop
  | .cacheLoad _ ns _ => 0 ∉ ns
  | .viewsLoad q => q.Ok h
  | .pick q => q.Ok h ∧ q.WhileOpen h fun _ => False
  | .getRows q conn => q.Ok h ∧ q.WhileOpen h fun o => conn = o.conn
  | .cacheStore q rec => q.Gets served h rec
  | .returned q (.ok rec) => q.Gets served h rec
  | .endLoad snap viewID | .endPick snap viewID | .endView snap viewID _
  | .viewsDelete snap viewID _ => Closing h snap viewID
  | .closeReturned snap _ =>
      ∃ o, h.snapshots[snap]? = some o ∧ h.client.views.lookup o.snapshot.viewID = none
  | _ => True

/-- A snapshot after something happened to it. -/
structure Opened.Becomes (o o' : Opened) : Prop where
  viewID : o'.snapshot.viewID = o.snapshot.viewID
  conn : o'.conn = o.conn
  closing : o.closing = true → o'.closing = true

/-- What the actions of a task leave to the others. -/
structure Later (h h' : Shared) : Prop where
  snapshots : ∀ (snap : ℕ) o, h.snapshots[snap]? = some o →
    ∃ o', h'.snapshots[snap]? = some o' ∧ o.Becomes o'
  released : ∀ (snap : ℕ) o, h.snapshots[snap]? = some o →
    h.client.views.lookup o.snapshot.viewID = none →
      h'.client.views.lookup o.snapshot.viewID = none

theorem Opened.Becomes.refl (o : Opened) : o.Becomes o := ⟨rfl, rfl, id⟩

/-- A snapshot that is open was so before. -/
theorem Opened.Becomes.isOpen (hb : o.Becomes o') (hopen : o'.closing = false) :
    o.closing = false := by
  cases hclosing : o.closing with
  | false => rfl
  | true => exact absurd (hb.closing hclosing) (by simp [hopen])

theorem Later.refl (h : Shared) : Later h h :=
  ⟨fun _ o ho => ⟨o, ho, .refl o⟩, fun _ _ _ hnone => hnone⟩

theorem Read.Ok.later (hq : q.Ok h) (hl : Later h h') : q.Ok h' := by
  intro snap hsnap
  obtain ⟨hns, o, ho, hview⟩ := hq snap hsnap
  obtain ⟨o', ho', hb⟩ := hl.snapshots snap o ho
  exact ⟨hns, o', ho', hb.viewID.trans hview⟩

theorem Read.WhileOpen.later {P P' : Opened → Prop} (hw : q.WhileOpen h P) (hq : q.Ok h)
    (hl : Later h h') (hP : ∀ o o', o.Becomes o' → P o → P' o') : q.WhileOpen h' P' := by
  intro snap o' hsnap ho' hopen
  obtain ⟨_, o, ho, _⟩ := hq snap hsnap
  obtain ⟨o₁, ho₁, hb⟩ := hl.snapshots snap o ho
  obtain rfl := Option.some.inj (ho₁.symm.trans ho')
  exact hP o o₁ hb (hw snap o hsnap ho (hb.isOpen hopen))

theorem Opened.Becomes.recordIn (hb : o.Becomes o') (ns key : GoString) :
    o'.recordIn served ns key = o.recordIn served ns key := by
  rw [Opened.recordIn, Opened.recordIn, hb.viewID, hb.conn]

theorem Read.Gets.later (hq : q.Gets served h rec) (hl : Later h h') : q.Gets served h' rec := by
  refine ⟨hq.1.later hl, hq.2.later hq.1 hl fun o o' hb hrec => ?_⟩
  rw [hb.recordIn]
  exact hrec

theorem Closing.later {viewID : GoString} (hc : Closing h snap viewID) (hl : Later h h') :
    Closing h' snap viewID := by
  obtain ⟨o, ho, hview, hclosing⟩ := hc
  obtain ⟨o', ho', hb⟩ := hl.snapshots snap o ho
  exact ⟨o', ho', hb.viewID.trans hview, hb.closing hclosing⟩

/-- What a task knows stays true while the others act. -/
theorem Task.Ok.later (hok : task.Ok served h) (hl : Later h h') : task.Ok served h' := by
  cases task with
  | cacheLoad snap ns key => exact hok
  | viewsLoad q => exact Read.Ok.later hok hl
  | pick q => exact ⟨hok.1.later hl, hok.2.later hok.1 hl fun _ _ _ hfalse => hfalse⟩
  | getRows q conn =>
      refine ⟨hok.1.later hl, hok.2.later hok.1 hl fun o o' hb hconn => ?_⟩
      exact hconn.trans hb.conn.symm
  | cacheStore q rec => exact Read.Gets.later hok hl
  | returned q result =>
      cases result with
      | ok rec => exact Read.Gets.later hok hl
      | error err => trivial
  | endLoad | endPick | endView | viewsDelete => exact Closing.later hok hl
  | closeReturned snap err =>
      obtain ⟨o, ho, hnone⟩ := hok
      obtain ⟨o', ho', hb⟩ := hl.snapshots snap o ho
      refine ⟨o', ho', ?_⟩
      rw [hb.viewID]
      exact hl.released snap o ho hnone
  | _ => trivial

end Tasks

section Actions

variable {served : Served} {h h' : Shared} {answer : Answer} {task task' : Task}

/-- What holds of the client and the snapshots between two actions. -/
structure SharedInv (served : Served) (h : Shared) : Prop where
  /-- No two snapshots have one view. -/
  ids : ∀ (snap snap' : ℕ) o o', h.snapshots[snap]? = some o → h.snapshots[snap']? = some o' →
    o.snapshot.viewID = o'.snapshot.viewID → snap = snap'
  routed : ∀ (snap : ℕ) o, h.snapshots[snap]? = some o → o.closing = false →
    h.client.views.lookup o.snapshot.viewID = some o.conn
  cached : ∀ (snap : ℕ) o, h.snapshots[snap]? = some o → o.closing = false →
    ∀ ck rec, o.snapshot.cache.lookup ck = some rec →
      ∃ ns key, 0 ∉ ns ∧ cacheKey ns key = ck ∧ rec = o.recordIn served ns key

/-- What an action of a task keeps. -/
structure Keeps (served : Served) (h h' : Shared) (task' : Task) : Prop where
  inv : SharedInv served h'
  later : Later h h'
  ok : task'.Ok served h'

theorem SharedInv.keeps (hinv : SharedInv served h) (hok : task'.Ok served h) :
    Keeps served h h task' :=
  ⟨hinv, .refl h, hok⟩

/-- Picking a connection touches neither the views nor the snapshots. -/
theorem SharedInv.pick (hinv : SharedInv served h) (hok : task'.Ok served h) :
    Keeps served h h.pick.2 task' := by
  have hlater : Later h h.pick.2 := ⟨(Later.refl h).snapshots, (Later.refl h).released⟩
  exact ⟨⟨hinv.ids, hinv.routed, hinv.cached⟩, hlater, hok.later hlater⟩

/-- A new view is stored under an id that no other has. -/
theorem keeps_beginView {conn : ℕ} {viewID : GoString} (hinv : SharedInv served h)
    (hnew : ∀ o ∈ h.snapshots, o.snapshot.viewID ≠ viewID) :
    Keeps served h { h with
      client := { h.client with views := h.client.views.insert viewID conn }
      snapshots := h.snapshots ++ [⟨⟨viewID, ∅⟩, conn, false⟩] } (.snapshotReturned none) := by
  have hne : ∀ (snap : ℕ) o, h.snapshots[snap]? = some o → o.snapshot.viewID ≠ viewID :=
    fun snap o ho => hnew o (List.mem_of_getElem? ho)
  refine ⟨⟨fun snap snap' o o' ho ho' hid => ?_, fun snap o ho hopen => ?_,
    fun snap o ho hopen ck rec hrec => ?_⟩, ⟨fun snap o ho => ?_, fun snap o ho hnone => ?_⟩,
    trivial⟩
  · rcases getElem?_concat_eq_some.mp ho with ho | ⟨rfl, rfl⟩
    · rcases getElem?_concat_eq_some.mp ho' with ho' | ⟨_, rfl⟩
      · exact hinv.ids snap snap' o o' ho ho' hid
      · exact absurd hid (hne snap o ho)
    · rcases getElem?_concat_eq_some.mp ho' with ho' | ⟨rfl, _⟩
      · exact absurd hid.symm (hne snap' o' ho')
      · rfl
  · rcases getElem?_concat_eq_some.mp ho with ho | ⟨_, rfl⟩
    · rw [AList.lookup_insert_ne (hne snap o ho)]
      exact hinv.routed snap o ho hopen
    · exact AList.lookup_insert _
  · rcases getElem?_concat_eq_some.mp ho with ho | ⟨_, rfl⟩
    · exact hinv.cached snap o ho hopen ck rec hrec
    · cases hrec
  · refine ⟨o, ?_, .refl o⟩
    rw [List.getElem?_append_left (List.getElem?_eq_some_iff.mp ho).choose]
    exact ho
  · rw [AList.lookup_insert_ne (hne snap o ho)]
    exact hnone

/-- The first read of the cache: a record that is there is that of the key. -/
theorem keeps_cacheLoad {snap : ℕ} {ns key : GoString} (hinv : SharedInv served h)
    (hns : 0 ∉ ns) (hnext : Task.next answer h (.cacheLoad snap ns key) = some (h', task')) :
    Keeps served h h' task' := by
  obtain ⟨o, ho, hnext⟩ := Option.map_eq_some_iff.mp hnext
  have hq : Read.Ok h ⟨some snap, o.snapshot.viewID, ns, key⟩ := by
    rintro snap' hsnap
    cases hsnap
    exact ⟨hns, o, ho, rfl⟩
  split at hnext
  · rename_i rec hrec
    cases hnext
    refine hinv.keeps ⟨hq, fun snap' o' hsnap ho' hopen => ?_⟩
    cases hsnap
    obtain rfl := Option.some.inj (ho.symm.trans ho')
    obtain ⟨ns', key', hns', hkey, hexact⟩ := hinv.cached snap o ho hopen _ rec hrec
    obtain ⟨rfl, rfl⟩ := cacheKey_inj hns' hns hkey
    exact hexact
  · cases hnext
    exact hinv.keeps hq

/-- An open view is found with its connection. -/
theorem keeps_viewsLoad {q : Read} (hinv : SharedInv served h) (hq : q.Ok h)
    (hnext : Task.next answer h (.viewsLoad q) = some (h', task')) : Keeps served h h' task' := by
  have hroute : ∀ snap o, q.snap = some snap → h.snapshots[snap]? = some o →
      o.closing = false → h.client.views.lookup q.viewID = some o.conn := by
    intro snap o hsnap ho hopen
    obtain ⟨_, o', ho', hview⟩ := hq snap hsnap
    obtain rfl := Option.some.inj (ho.symm.trans ho')
    rw [← hview]
    exact hinv.routed snap o ho hopen
  rw [Task.next] at hnext
  split at hnext
  · rename_i conn hconn
    cases hnext
    refine hinv.keeps ⟨hq, fun snap o hsnap ho hopen => ?_⟩
    have hconn' := hroute snap o hsnap ho hopen
    rw [hconn] at hconn'
    exact Option.some.inj hconn'
  · rename_i hnone
    cases hnext
    refine hinv.keeps ⟨hq, fun snap o hsnap ho hopen => ?_⟩
    have hconn' := hroute snap o hsnap ho hopen
    rw [hnone] at hconn'
    cases hconn'

/-- The instance that opened the view answers from it. -/
theorem keeps_getRows {q : Read} {conn : ℕ} (hinv : SharedInv served h)
    (hok : (Task.getRows q conn).Ok served h) (hanswer : Answers served h (.getRows q conn) answer)
    (hnext : Task.next answer h (.getRows q conn) = some (h', task')) :
    Keeps served h h' task' := by
  obtain ⟨hq, hconn⟩ := hok
  have hgets : ∀ res rec, answer = .rows res →
      QueryService.get (answering res) q.viewID q.ns q.key = .ok rec → q.Gets served h rec := by
    rintro res rec rfl hget
    cases res with
    | error err => cases hget
    | ok res =>
        refine ⟨hq, fun snap o hsnap ho hopen => ?_⟩
        obtain ⟨_, o', ho', hview⟩ := hq snap hsnap
        obtain rfl := Option.some.inj (ho.symm.trans ho')
        obtain rfl := hconn snap o hsnap ho hopen
        have hfind := hanswer o (List.mem_of_getElem? ho) hview rfl hopen
        rw [Opened.recordIn, hview, ← hfind]
        exact (Except.ok.inj hget).symm
  cases answer with
  | rows res =>
      simp only [Task.next] at hnext
      split at hnext
      · cases hnext
        exact hinv.keeps trivial
      · rename_i rec hget _
        cases hnext
        exact hinv.keeps (hgets res rec rfl hget)
      · rename_i rec _ hget _
        cases hnext
        exact hinv.keeps (hgets res rec rfl hget)
  | _ => cases hnext

/-- One snapshot changes, other than by its view. -/
theorem SharedInv.set {snap : ℕ} {o o' : Opened} (hinv : SharedInv served h)
    (ho : h.snapshots[snap]? = some o) (hb : o.Becomes o')
    (hcached : o'.closing = false → ∀ ck rec, o'.snapshot.cache.lookup ck = some rec →
      ∃ ns key, 0 ∉ ns ∧ cacheKey ns key = ck ∧ rec = o'.recordIn served ns key) :
    SharedInv served { h with snapshots := h.snapshots.set snap o' } := by
  have hold : ∀ (s : ℕ) o₁, (h.snapshots.set snap o')[s]? = some o₁ →
      ∃ o₀, h.snapshots[s]? = some o₀ ∧ o₀.Becomes o₁ := by
    intro s o₁ ho₁
    rcases (getElem?_set_eq_some ho).mp ho₁ with ⟨rfl, rfl⟩ | ⟨_, ho₁⟩
    · exact ⟨o, ho, hb⟩
    · exact ⟨o₁, ho₁, .refl o₁⟩
  refine ⟨fun s s' o₁ o₂ ho₁ ho₂ hid => ?_, fun s o₁ ho₁ hopen => ?_,
    fun s o₁ ho₁ hopen ck rec hrec => ?_⟩
  · obtain ⟨o₁', ho₁', hb₁⟩ := hold s o₁ ho₁
    obtain ⟨o₂', ho₂', hb₂⟩ := hold s' o₂ ho₂
    exact hinv.ids s s' o₁' o₂' ho₁' ho₂' (hb₁.viewID.symm.trans (hid.trans hb₂.viewID))
  · obtain ⟨o₀, ho₀, hb₀⟩ := hold s o₁ ho₁
    rw [hb₀.viewID, hb₀.conn]
    exact hinv.routed s o₀ ho₀ (hb₀.isOpen hopen)
  · rcases (getElem?_set_eq_some ho).mp ho₁ with ⟨rfl, rfl⟩ | ⟨_, ho₁⟩
    · exact hcached hopen ck rec hrec
    · exact hinv.cached s o₁ ho₁ hopen ck rec hrec

theorem Later.set {snap : ℕ} {o o' : Opened} (ho : h.snapshots[snap]? = some o)
    (hb : o.Becomes o') : Later h { h with snapshots := h.snapshots.set snap o' } := by
  refine ⟨fun s o₁ ho₁ => ?_, fun _ _ _ hnone => hnone⟩
  by_cases heq : snap = s
  · subst heq
    obtain rfl := Option.some.inj (ho.symm.trans ho₁)
    exact ⟨o', getElem?_set_of_some ho o', hb⟩
  · exact ⟨o₁, (List.getElem?_set_ne heq).trans ho₁, .refl o₁⟩

/-- A record goes into the cache of its snapshot. -/
theorem keeps_cacheStore {q : Read} {rec : Option WriteRecord} (hinv : SharedInv served h)
    (hok : q.Gets served h rec)
    (hnext : Task.next answer h (.cacheStore q rec) = some (h', task')) :
    Keeps served h h' task' := by
  obtain ⟨⟨snap, o⟩, hp, hnext⟩ := Option.map_eq_some_iff.mp hnext
  obtain ⟨snap', hsnap, hp⟩ := Option.bind_eq_some_iff.mp hp
  obtain ⟨o', ho, hp⟩ := Option.map_eq_some_iff.mp hp
  cases hp
  cases hnext
  have hb : o.Becomes (o.cache (cacheKey q.ns q.key) rec) := ⟨rfl, rfl, id⟩
  refine ⟨hinv.set ho hb fun hopen ck rec' hrec => ?_, .set ho hb, hok.later (.set ho hb)⟩
  rcases lookup_insert_eq_some.mp hrec with ⟨rfl, rfl⟩ | ⟨_, hrec⟩
  · exact ⟨q.ns, q.key, (hok.1 snap hsnap).1, rfl, hok.2 snap o hsnap ho hopen⟩
  · exact hinv.cached snap o ho hopen ck rec' hrec

/-- The view of a closed snapshot is forgotten, and no other. -/
theorem keeps_viewsDelete {snap : ℕ} {viewID : GoString} {err : Option Text}
    (hinv : SharedInv served h) (hclosing : Closing h snap viewID) :
    Keeps served h { h with client := { h.client with views := h.client.views.erase viewID } }
      (.closeReturned snap err) := by
  obtain ⟨o, ho, rfl, hc⟩ := hclosing
  refine ⟨⟨hinv.ids, fun snap' o' ho' hopen => ?_, hinv.cached⟩,
    ⟨fun snap' o' ho' => ⟨o', ho', .refl o'⟩, fun snap' o' ho' hnone => ?_⟩,
    ⟨o, ho, AList.lookup_erase ..⟩⟩
  · refine lookup_erase_eq_some.mpr ⟨fun hid => ?_, hinv.routed snap' o' ho' hopen⟩
    obtain rfl := hinv.ids snap' snap o' o ho' ho hid
    obtain rfl := Option.some.inj (ho'.symm.trans ho)
    rw [hc] at hopen
    cases hopen
  · rw [Option.eq_none_iff_forall_ne_some]
    intro conn hconn
    have hsome := (lookup_erase_eq_some.mp hconn).2
    rw [hnone] at hsome
    cases hsome

theorem next_keeps (hinv : SharedInv served h) (hok : task.Ok served h)
    (hanswer : Answers served h task answer)
    (hnext : task.next answer h = some (h', task')) : Keeps served h h' task' := by
  cases task with
  | beginPick =>
      cases hnext
      exact hinv.pick trivial
  | beginView conn =>
      cases answer with
      | view res =>
          cases res with
          | error err =>
              cases hnext
              exact hinv.keeps trivial
          | ok viewID =>
              cases hnext
              exact keeps_beginView hinv hanswer.2
      | _ => cases hnext
  | cacheLoad snap ns key => exact keeps_cacheLoad hinv hok hnext
  | viewsLoad q => exact keeps_viewsLoad hinv hok hnext
  | pick q =>
      cases hnext
      refine hinv.pick ⟨hok.1, fun snap o hsnap ho hopen => ?_⟩
      exact absurd (hok.2 snap o hsnap ho hopen) id
  | getRows q conn => exact keeps_getRows hinv hok hanswer hnext
  | cacheStore q rec => exact keeps_cacheStore hinv hok hnext
  | endLoad snap viewID =>
      rw [Task.next] at hnext
      split at hnext <;> cases hnext <;> exact hinv.keeps hok
  | endPick snap viewID =>
      cases hnext
      exact hinv.pick hok
  | endView snap viewID conn =>
      cases answer with
      | ended err =>
          cases hnext
          exact hinv.keeps hok
      | _ => cases hnext
  | viewsDelete snap viewID err =>
      cases hnext
      exact keeps_viewsDelete hinv hok
  | snapshotReturned | returned | closeReturned => cases hnext

end Actions

section Runs

variable {served : Served} {c : GRPCClient} {s s' : System} {a : Label} {snap : ℕ} {o : Opened}

structure SystemInv (served : Served) (s : System) : Prop where
  shared : SharedInv served s.shared
  ok : ∀ (k : ℕ) task, s.tasks[k]? = some task → task.Ok served s.shared

theorem init_inv (served : Served) (c : GRPCClient) : SystemInv served (.init c) where
  shared := ⟨nofun, nofun, nofun⟩
  ok := nofun

theorem SystemInv.enter {h' : Shared} {task : Task} (hs : SystemInv served s)
    (hinv : SharedInv served h') (hlater : Later s.shared h') (hok : task.Ok served h') :
    SystemInv served ⟨h', s.tasks ++ [task]⟩ := by
  refine ⟨hinv, fun k t hk => ?_⟩
  rcases getElem?_concat_eq_some.mp hk with hk | ⟨_, rfl⟩
  · exact (hs.ok k t hk).later hlater
  · exact hok

theorem SystemInv.step (hs : SystemInv served s) (hgood : Serves served s a) (hstep : Step s a s') :
    SystemInv served s' := by
  cases a with
  | snapshot =>
      cases hstep
      exact hs.enter hs.shared (.refl _) trivial
  | get snap ns key =>
      rw [Step, System.step, Option.ite_none_right_eq_some] at hstep
      cases hstep.2
      exact hs.enter hs.shared (.refl _) hgood
  | latest ns key =>
      cases hstep
      exact hs.enter hs.shared (.refl _) nofun
  | close snap =>
      obtain ⟨o, ho, rfl⟩ := Option.map_eq_some_iff.mp hstep
      have hb : o.Becomes { o with closing := true } := ⟨rfl, rfl, fun _ => rfl⟩
      exact hs.enter (hs.shared.set ho hb nofun) (.set ho hb)
        ⟨_, getElem?_set_of_some ho _, rfl, rfl⟩
  | act k answer =>
      obtain ⟨⟨h', task'⟩, hnext, rfl⟩ := Option.map_eq_some_iff.mp hstep
      obtain ⟨task, hk, hnext⟩ := Option.bind_eq_some_iff.mp hnext
      have hkeeps := next_keeps hs.shared (hs.ok k task hk) (hgood task hk) hnext
      refine ⟨hkeeps.inv, fun j t hj => ?_⟩
      rcases (getElem?_set_eq_some hk).mp hj with ⟨_, rfl⟩ | ⟨_, hj⟩
      · exact hkeeps.ok
      · exact (hs.ok j t hj).later hkeeps.later

/-- However the calls of any number of goroutines are interleaved, a snapshot on which `Close`
was not called reads the view it was opened with, at the instance that opened it; and once
`Close` has returned, the client has forgotten the view. -/
theorem snapshot_reads_one_view (h : Reaches Step (Serves served) (.init c) s)
    (ho : s.shared.snapshots[snap]? = some o) :
    (o.closing = false → ReadsOneView served s snap o) ∧
      ∀ (k : ℕ) err, s.tasks[k]? = some (.closeReturned snap err) →
        s.shared.client.views.lookup o.snapshot.viewID = none := by
  have hs : SystemInv served s :=
    h.invariant (init_inv served c) fun _ _ _ hs hgood hstep => hs.step hgood hstep
  refine ⟨fun hopen => ⟨fun k q conn hk hsnap => ?_, fun k q rec hk hsnap => ?_⟩,
    fun k err hk => ?_⟩
  · obtain ⟨hq, hconn⟩ := hs.ok k _ hk
    obtain ⟨_, o', ho', hview⟩ := hq snap hsnap
    obtain rfl := Option.some.inj (ho.symm.trans ho')
    exact ⟨hview.symm, hconn snap o hsnap ho hopen⟩
  · exact (hs.ok k _ hk).2 snap o hsnap ho hopen
  · obtain ⟨o', ho', hnone⟩ := hs.ok k _ hk
    obtain rfl := Option.some.inj (ho.symm.trans ho')
    exact hnone

/-- Two instances, of which each answers with a row of its own. -/
def sampleRows (conn : ℕ) : List (GoString × List Row) := [([97], [⟨[107], [], conn⟩])]

def sampleServed : Served := fun conn _ ns key =>
  (rowsOf ns (sampleRows conn)).find? fun r => r.key = key

/-- The answers of these instances, with new ids for the views. -/
def sampleCheck (s : System) : Label → Bool
  | .get _ ns _ => 0 ∉ ns
  | .act _ (.view (.ok viewID)) =>
      viewID ≠ [] ∧ ∀ o ∈ s.shared.snapshots, o.snapshot.viewID ≠ viewID
  | .act k (.rows (.ok res)) =>
      match s.tasks[k]? with
      | some (.getRows _ conn) => res = sampleRows conn
      | _ => false
  | _ => true

theorem sampleCheck_serves (s : System) (a : Label) (h : sampleCheck s a = true) :
    Serves sampleServed s a := by
  cases a with
  | get snap ns key =>
      have hns : 0 ∉ ns := of_decide_eq_true h
      exact hns
  | act k answer =>
      intro task hk
      cases answer with
      | view res =>
          cases res with
          | ok viewID =>
              have hnew := of_decide_eq_true h
              cases task with
              | beginView conn => exact hnew
              | _ => trivial
          | error err => cases task <;> trivial
      | rows res =>
          cases res with
          | ok res =>
              simp only [sampleCheck, hk] at h
              cases task with
              | getRows q conn =>
                  obtain rfl := of_decide_eq_true h
                  intro o _ _ _ _
                  rfl
              | _ => cases h
          | error err => cases task <;> trivial
      | _ => cases task <;> trivial
  | _ => trivial

/-- Two snapshots over two connections, each read once, and the second one closed. -/
def sampleRun : List Label :=
  [Label.snapshot, Label.snapshot, Label.act 1 Answer.none, Label.act 0 Answer.none,
    Label.act 1 (Answer.view (.ok [118])), Label.act 0 (Answer.view (.ok [119])),
    Label.get 0 [97] [107], Label.get 1 [97] [107], Label.act 2 Answer.none,
    Label.act 3 Answer.none, Label.act 2 Answer.none, Label.act 3 Answer.none,
    Label.act 3 (Answer.rows (.ok (sampleRows 0))), Label.act 2 (Answer.rows (.ok (sampleRows 1))),
    Label.act 2 Answer.none, Label.act 3 Answer.none, Label.close 1, Label.act 4 Answer.none,
    Label.act 4 (Answer.ended none), Label.act 4 Answer.none]

theorem snapshot_reads_one_view_sample :
    ∃ s o, s.shared.snapshots[0]? = some o ∧ o.closing = false ∧
      s.tasks[2]? = some (.returned ⟨some 0, [118], [97], [107]⟩
        (.ok (some (record [97] [107] ⟨[107], [], 1⟩)))) ∧
      s.tasks[4]? = some (.closeReturned 1 none) ∧ ReadsOneView sampleServed s 0 o := by
  have hrun : (sampleRun.foldlM
      (fun s a => if sampleCheck s a then System.step s a else none) (.init ⟨2, 0, ∅⟩)).map
        (fun s => (s.shared.snapshots[0]?.map Opened.closing, s.tasks[2]?, s.tasks[4]?)) =
      some (some false, some (.returned ⟨some 0, [118], [97], [107]⟩
        (.ok (some (record [97] [107] ⟨[107], [], 1⟩)))), some (.closeReturned 1 none)) := by
    rfl
  obtain ⟨s, hs, hpair⟩ := Option.map_eq_some_iff.mp hrun
  obtain ⟨hopen, hpair⟩ := Prod.mk.inj hpair
  obtain ⟨hread, hclose⟩ := Prod.mk.inj hpair
  obtain ⟨o, ho, hopen⟩ := Option.map_eq_some_iff.mp hopen
  exact ⟨s, o, ho, hopen, hread, hclose,
    (snapshot_reads_one_view (Reaches.of_checked sampleCheck_serves _ hs) ho).1 hopen⟩

end Runs

section Picks

variable {conns : Int} {c : GRPCClient} {s s' : System} {a : Label} {i j : ℕ}

/-- The picks are turns of the connections. -/
structure Picked (c : GRPCClient) (h : Shared) : Prop where
  clients : h.client.clients = c.clients
  next : h.client.next = h.picks.length % 2 ^ 64
  picks : h.picks = RoundRobin.turns (2 ^ 64) c.clients h.picks.length

theorem Picked.pick {h : Shared} (hp : Picked c h) : Picked c h.pick.2 := by
  have hnext : (h.client.next + 1) % 2 ^ 64 = (h.picks.length + 1) % 2 ^ 64 := by
    rw [hp.next, Nat.mod_add_mod]
  have hlength : h.pick.2.picks.length = h.picks.length + 1 := List.length_append ..
  refine ⟨hp.clients, ?_, ?_⟩
  · rw [hlength]
    exact hnext
  · rw [hlength, RoundRobin.turns, ← hp.picks, ← hnext, ← hp.clients]
    rfl

/-- Only `pick` uses the counter. -/
theorem next_picked {h h' : Shared} {answer : Answer} {task task' : Task} (hp : Picked c h)
    (hnext : task.next answer h = some (h', task')) : Picked c h' := by
  cases task with
  | beginPick | pick | endPick =>
      cases hnext
      exact hp.pick
  | beginView conn =>
      cases answer with
      | view res => cases res <;> cases hnext <;> exact ⟨hp.clients, hp.next, hp.picks⟩
      | _ => cases hnext
  | cacheLoad snap ns key =>
      obtain ⟨o, _, hnext⟩ := Option.map_eq_some_iff.mp hnext
      split at hnext <;> cases hnext <;> exact hp
  | viewsLoad | endLoad =>
      rw [Task.next] at hnext
      split at hnext <;> cases hnext <;> exact hp
  | getRows q conn =>
      cases answer with
      | rows res =>
          simp only [Task.next] at hnext
          split at hnext <;> cases hnext <;> exact hp
      | _ => cases hnext
  | cacheStore q rec =>
      obtain ⟨p, _, hnext⟩ := Option.map_eq_some_iff.mp hnext
      cases hnext
      exact ⟨hp.clients, hp.next, hp.picks⟩
  | endView snap viewID conn =>
      cases answer with
      | ended err =>
          cases hnext
          exact hp
      | _ => cases hnext
  | viewsDelete snap viewID err =>
      cases hnext
      exact ⟨hp.clients, hp.next, hp.picks⟩
  | snapshotReturned | returned | closeReturned => cases hnext

theorem step_picked (hp : Picked c s.shared) (hstep : Step s a s') : Picked c s'.shared := by
  cases a with
  | snapshot | latest ns key =>
      cases hstep
      exact hp
  | get snap ns key =>
      rw [Step, System.step, Option.ite_none_right_eq_some] at hstep
      cases hstep.2
      exact hp
  | close snap =>
      obtain ⟨o, _, rfl⟩ := Option.map_eq_some_iff.mp hstep
      exact ⟨hp.clients, hp.next, hp.picks⟩
  | act k answer =>
      obtain ⟨⟨h', task'⟩, hnext, rfl⟩ := Option.map_eq_some_iff.mp hstep
      obtain ⟨task, _, hnext⟩ := Option.bind_eq_some_iff.mp hnext
      exact next_picked hp hnext

/-- The connections take turns whatever the interleaving, so that no two of them differ by
more than one. The counter may wrap if the number of connections divides its size. -/
theorem picks_spread (hc : newGRPCClient conns = .ok c) (h : Reaches Step Free (.init c) s)
    (hwrap : conns ∣ 2 ^ 64 ∨ s.shared.picks.length < 2 ^ 64) (hi : i < conns) (hj : j < conns) :
    s.shared.picks.count i ≤ s.shared.picks.count j + 1 := by
  rw [newGRPCClient] at hc
  split at hc
  · cases hc
  · rename_i hpos
    cases hc
    obtain ⟨n, rfl⟩ := Int.eq_ofNat_of_zero_le (show 0 ≤ conns by omega)
    have hp : Picked ⟨n, 0, ∅⟩ s.shared := by
      apply h.invariant
      · exact ⟨rfl, rfl, rfl⟩
      · intro t a u hp _ hstep
        exact step_picked hp hstep
    rw [hp.picks]
    refine RoundRobin.turns_fair (hwrap.imp (fun hdvd => ?_) id) ?_ ?_
    · exact_mod_cast hdvd
    · exact_mod_cast hi
    · exact_mod_cast hj

theorem picks_spread_sample :
    ∃ s, sampleRun.foldlM System.step (.init ⟨2, 0, ∅⟩) = some s ∧ s.shared.picks = [1, 0] ∧
      s.shared.picks.count 1 ≤ s.shared.picks.count 0 + 1 := by
  have hrun : (sampleRun.foldlM System.step (.init ⟨2, 0, ∅⟩)).map (fun s => s.shared.picks) =
      some [1, 0] := by
    rfl
  obtain ⟨s, hs, hpicks⟩ := Option.map_eq_some_iff.mp hrun
  have hc : newGRPCClient 2 = .ok ⟨2, 0, ∅⟩ := rfl
  exact ⟨s, hs, hpicks, picks_spread hc (Reaches.of_foldlM _ hs)
    (Or.inl (by decide)) (by decide) (by decide)⟩

end Picks

end FabricXSdk.State.QueryService
