import FabricXSdk.Lib.Golang
import FabricXSdk.Lib.Transition

/-!
# The broadcast stream of an orderer

`Broadcast` sends over one stream that all calls share. It holds the mutex of the client
from the check of the stream to the last `Send`, replaces a stream whose context is
cancelled, and retries a failed `Send` once on a new one. The reply reader of a stream
cancels its context when it ends, and `Close` cancels the last one; neither holds the mutex
while it does.

## Implementation notes

Contexts are numbered in the order in which they are created, and a stream has the number
of its context. `streamCtx` and `streamCancel` are only ever assigned together, so one field
stands for both. A label is one action of a call, with what the action it stands for
returned: the error of the caller's context, of the opening of a stream, of `Send`, of
`CloseSend` or of the connection. The wait of `Close` for the reply reader has a timeout, so
it may end at any time; replies that the reader only logs are left out. A nil stream or
context would be a panic, which is no step; `holder_never_stuck` says that there is none.
-/

namespace FabricXSdk.Network.Orderer

open Golang Transition

/-- What happens to streams, in the order in which it happens. -/
inductive Entry
  | cancel (ctx : ℕ)
  | opened (stream : ℕ)
  /-- A call hands its envelope to the `Send` of a stream. -/
  | sent (call stream : ℕ)
  /-- `Close` sets `closed`. -/
  | closed
  deriving DecidableEq, Repr

/-- The client, with the contexts and the reply readers of its streams. -/
structure Client where
  /-- The call that holds the mutex. -/
  mu : Option ℕ
  closed : Bool
  streamCtx : Option ℕ
  stream : Option ℕ
  /-- The context that the client was made with is cancelled. -/
  ctxDone : Bool
  /-- The number of contexts created. -/
  contexts : ℕ
  readers : List ℕ
  log : List Entry

/-- The places of a call of `Broadcast`, where `retry` is set from the second `ensureStream`
on, and of a call of `Close`, which keeps the stream and the context it has copied. -/
inductive Call
  | start
  | lock
  | ensureStream (retry : Bool)
  | renew (retry : Bool)
  | create (retry : Bool)
  | opening (retry : Bool)
  | openFailed (err : Text)
  | send (retry : Bool)
  | sendFailed
  | unlock (err : Option Text)
  | returned (err : Option Text)
  | closeLock
  | closeMark
  | closeUnlock (stream cancel : Option ℕ)
  | closeSend (stream cancel : Option ℕ)
  | closeWait (cancel : Option ℕ)
  | closeCancel (cancel : Option ℕ)
  | closeConn
  | closeReturned (err : Option Text)

/-- The context is cancelled, by a call of its cancel function or with its parent. -/
def Client.Cancelled (o : Client) (ctx : ℕ) : Prop := o.ctxDone = true ∨ .cancel ctx ∈ o.log

instance (o : Client) (ctx : ℕ) : Decidable (o.Cancelled ctx) :=
  inferInstanceAs (Decidable (_ ∨ _))

def Client.record (o : Client) (e : Entry) : Client := { o with log := o.log ++ [e] }

/-- Call a cancel function, unless it is nil. -/
def Client.cancel (o : Client) : Option ℕ → Client
  | none => o
  | some ctx => o.record (.cancel ctx)

/-- The next action of call `i`. -/
def Call.next (addr : Text) (i : ℕ) (err : Option Text) (o : Client) : Call → Option (Client × Call)
  | .start =>
      match err with
      | some err => some (o, .returned (some err))
      | none => some (o, .lock)
  | .lock => if o.mu = none then some ({ o with mu := some i }, .ensureStream false) else none
  | .ensureStream retry =>
      if o.closed then
        some (o, .unlock (some ([.lit "orderer "] ++ addr ++ [.lit ": closed"])))
      else
        match o.stream, o.streamCtx with
        | none, _ => some (o, .renew retry)
        | some _, none => none
        | some _, some ctx =>
            if o.Cancelled ctx then some (o, .renew retry) else some (o, .send retry)
  | .renew retry => some ({ o.cancel o.streamCtx with stream := none }, .create retry)
  | .create retry =>
      some ({ o with streamCtx := some o.contexts, contexts := o.contexts + 1 }, .opening retry)
  | .opening retry =>
      match o.streamCtx, err with
      | none, _ => none
      | some _, some err => some (o, .openFailed err)
      | some ctx, none =>
          some ({ o.record (.opened ctx) with
            stream := some ctx, readers := o.readers ++ [ctx] }, .send retry)
  | .openFailed err =>
      some (o.cancel o.streamCtx,
        .unlock (some ([.lit "open broadcast stream to "] ++ addr ++ [.lit ": "] ++ err)))
  | .send retry =>
      match o.stream, err, retry with
      | none, _, _ => none
      | some stream, none, _ => some (o.record (.sent i stream), .unlock none)
      | some stream, some _, false => some (o.record (.sent i stream), .sendFailed)
      | some stream, some err, true =>
          some (o.record (.sent i stream),
            .unlock (some ([.lit "broadcast to "] ++ addr ++ [.lit ": "] ++ err)))
  | .sendFailed =>
      match o.streamCtx with
      | none => none
      | some ctx => some (o.cancel (some ctx), .ensureStream true)
  | .unlock err => some ({ o with mu := none }, .returned err)
  | .returned _ => none
  | .closeLock => if o.mu = none then some ({ o with mu := some i }, .closeMark) else none
  | .closeMark =>
      some ({ o.record .closed with closed := true }, .closeUnlock o.stream o.streamCtx)
  | .closeUnlock stream cancel => some ({ o with mu := none }, .closeSend stream cancel)
  | .closeSend stream cancel =>
      match stream, err with
      | some _, none => some (o, .closeWait cancel)
      | _, _ => some (o, .closeCancel cancel)
  | .closeWait cancel => some (o, .closeCancel cancel)
  | .closeCancel cancel => some (o.cancel cancel, .closeConn)
  | .closeConn => some (o, .closeReturned err)
  | .closeReturned _ => none

structure System where
  client : Client
  calls : List Call

/-- A client that was just made, and nobody has called. -/
def System.init : System := ⟨⟨none, false, none, none, false, 0, [], []⟩, []⟩

inductive Label
  | broadcast
  | close
  | act (i : ℕ) (err : Option Text)
  /-- The reply reader of a stream returns. -/
  | exit (stream : ℕ)
  | ctxDone

def System.step (addr : Text) (s : System) : Label → Option System
  | .broadcast => some { s with calls := s.calls ++ [.start] }
  | .close => some { s with calls := s.calls ++ [.closeLock] }
  | .act i err =>
      (s.calls[i]?.bind (Call.next addr i err s.client)).map fun next =>
        ⟨next.1, s.calls.set i next.2⟩
  | .exit stream =>
      if stream ∈ s.client.readers then
        some { s with client :=
          { s.client.record (.cancel stream) with readers := s.client.readers.erase stream } }
      else none
  | .ctxDone => some { s with client := { s.client with ctxDone := true } }

def Step (addr : Text) (s : System) (a : Label) (s' : System) : Prop := s.step addr a = some s'

/-- The streams that a call has handed its envelope to. -/
def sendsOf (i : ℕ) (log : List Entry) : List ℕ :=
  log.filterMap fun
    | .sent call stream => if call = i then some stream else none
    | _ => none

/-- A later stream was opened after the context of the earlier one was cancelled. -/
def Renewed (log : List Entry) (first second : ℕ) : Prop :=
  first < second ∧ ∃ pre mid post, log = pre ++ .cancel first :: (mid ++ .opened second :: post)

/-- At most two sends, the second on a stream that replaced the first. -/
def AtMostTwice (log : List Entry) (i : ℕ) : Prop :=
  sendsOf i log = [] ∨ (∃ first, sendsOf i log = [first]) ∨
    ∃ first second, sendsOf i log = [first, second] ∧ Renewed log first second

/-- Opening a stream or sending over one. -/
def Entry.work : Entry → Bool
  | .opened _ => true
  | .sent _ _ => true
  | _ => false

/-- Nothing is opened or sent once `closed` is set. -/
def QuietAfterClose (log : List Entry) : Prop :=
  ∀ pre post, log = pre ++ .closed :: post → ∀ e ∈ post, e.work = false

structure Safe (s : System) : Prop where
  /-- At most one context is not cancelled. -/
  single : ∀ c < s.client.contexts, ∀ c' < s.client.contexts,
    ¬ s.client.Cancelled c → ¬ s.client.Cancelled c' → c = c'
  sends : ∀ i call, s.calls[i]? = some call → AtMostTwice s.client.log i
  quiet : QuietAfterClose s.client.log
  /-- Once a `Close` has returned, every context is cancelled. -/
  closed : ∀ (i : ℕ) err, s.calls[i]? = some (.closeReturned err) →
    ∀ c < s.client.contexts, s.client.Cancelled c

section Log

variable {log added : List Entry} {e : Entry} {i first second : ℕ}

@[simp] theorem sendsOf_append (i : ℕ) (log added : List Entry) :
    sendsOf i (log ++ added) = sendsOf i log ++ sendsOf i added :=
  List.filterMap_append ..

@[simp] theorem sendsOf_sent (i call stream : ℕ) :
    sendsOf i [.sent call stream] = if call = i then [stream] else [] := by
  by_cases h : call = i <;> simp [sendsOf, h]

theorem Renewed.append (h : Renewed log first second) (added : List Entry) :
    Renewed (log ++ added) first second := by
  obtain ⟨hlt, pre, mid, post, rfl⟩ := h
  exact ⟨hlt, pre, mid, post ++ added, by simp⟩

theorem renewed_opened (hlt : first < second) (h : .cancel first ∈ log) :
    Renewed (log ++ [.opened second]) first second := by
  obtain ⟨pre, mid, rfl⟩ := List.append_of_mem h
  exact ⟨hlt, pre, mid, [], by simp⟩

/-- A call that sends nothing more keeps its count. -/
theorem AtMostTwice.append (h : AtMostTwice log i) (hadded : sendsOf i added = []) :
    AtMostTwice (log ++ added) i := by
  rw [AtMostTwice, sendsOf_append, hadded, List.append_nil]
  rcases h with h | h | ⟨first, second, h, hrenewed⟩
  · exact Or.inl h
  · exact Or.inr (Or.inl h)
  · exact Or.inr (Or.inr ⟨first, second, h, hrenewed.append added⟩)

theorem QuietAfterClose.snoc (h : QuietAfterClose log) (he : e.work = true → .closed ∉ log) :
    QuietAfterClose (log ++ [e]) := by
  intro pre post heq e' he'
  rcases List.eq_nil_or_concat post with rfl | ⟨post', last, rfl⟩
  · cases he'
  · rw [List.concat_eq_append] at heq he'
    rw [← List.cons_append, ← List.append_assoc] at heq
    obtain ⟨hlog, hlast⟩ := List.append_inj' heq rfl
    obtain rfl := List.cons.inj hlast |>.1
    rcases List.mem_append.mp he' with he' | he'
    · exact h pre post' hlog e' he'
    · rw [List.mem_singleton.mp he', ← Bool.not_eq_true]
      intro hwork
      exact he hwork (by rw [hlog]; simp)

end Log

end FabricXSdk.Network.Orderer
