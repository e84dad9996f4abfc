import FabricXSdk.Lib.Backoff
import FabricXSdk.Network.Lifecycle
import FabricXSdk.Notification.Finality

/-!
# The delays of the reconnect loops

`Synchronizer.Start` and `FinalityListener.Start` double the delay they slept after an
error. The synchronizer takes the smaller of the result and `maxBackoff`. The listener
compares with `maxBackoff` before it doubles: a delay of 16 s is below 30 s, and the one
after it is 32 s, which it then keeps.

## Implementation notes

An error is a session that is retried. Where the context is done the loops return, and a
delay that the context cuts short is not in the trace. A new process starts afresh.
-/

namespace FabricXSdk

open Golang Transition Backoff

namespace Network

variable {σ Fate : Type} {b : Backend σ Fate} {s t : System σ} {a : Label Fate}

/-- `currentBackoff` of `Synchronizer.Start`, in seconds. -/
def retryPolicy : Policy ℕ := ⟨1, nextBackoff⟩

@[simp] def LoopPc.place : LoopPc → Place
  | .top => .top
  | .streaming _ => .session
  | .sleeping => .sleeping
  | _ => .elsewhere

/-- What a step shows of the delays. -/
def retryEvent (s : System σ) (a : Label Fate) (t : System σ) : Option (Event ℕ) :=
  match a with
  | .restart => some .fresh
  | _ => shown s.sync.currentBackoff s.sync.pc.place t.sync.pc.place

/-- `Start` has been called if its loop is anywhere. -/
def Sync.IdleBefore (s : Sync) : Prop := s.state = .notStarted → s.pc = .idle

theorem Sync.transition_ne_notStarted (s : Sync) {next : SyncState} (err : Option Text)
    (hnext : next ≠ .notStarted) : (s.transition next err).state ≠ .notStarted := by
  by_cases hstop : s.state = .stopped
  · rw [s.transition_stopped next err hstop, hstop]
    decide
  · rw [s.transition_state next err hstop]
    exact hnext

theorem Sync.IdleBefore.step (hs : s.sync.IdleBefore) (h : Step b s a t) : t.sync.IdleBefore := by
  intro hnew
  cases h with
  | start _ => cases hnew
  | alreadyStarted h => exact absurd hnew h
  | cancel | tick _ | monitorExit _ _ | peerHeight _ _ | peerFailed _ | localHeight _ _
  | localFailed _ _ => exact hs hnew
  | subscribe _ | retry _ | stop _ | ready _ =>
      exact absurd hnew (Sync.transition_ne_notStarted _ _ (by decide))
  | restart => rfl
  | leave hpc _ | proceed hpc _ | readHeight hpc _ | readFailed hpc _ | deliver hpc _
  | processFailed hpc _ | crash hpc _ | streamFailed _ hpc | streamEnd hpc | giveUp hpc _
  | persist hpc _ | wake hpc | interrupt hpc _ | join hpc _ | close hpc =>
      -- the loop is under way
      exact absurd (hpc.symm.trans (hs hnew)) (by simp)

theorem retryPolicy_moves (hs : s.sync.IdleBefore) (h : Step b s a t) :
    retryPolicy.Moves s.sync.currentBackoff (retryEvent s a t) t.sync.currentBackoff := by
  cases h with
  | start hnew =>
      have hpc := hs hnew
      simp only at hpc
      simp only [retryEvent, shown, hpc, LoopPc.place]
      exact .quiet
  | wake hpc =>
      simp only [retryEvent, shown, hpc, LoopPc.place]
      exact .slept
  | streamEnd hpc =>
      simp only [retryEvent, shown, hpc, LoopPc.place]
      exact .fresh
  | restart => exact .fresh
  | alreadyStarted _ | cancel | tick _ | monitorExit _ _ | peerHeight _ _ | peerFailed _
  | localHeight _ _ | localFailed _ _ => exact .keep (Or.inl rfl) rfl
  | ready _ => exact .keep (Or.inl (by simp)) (by simp [Sync.setMonitor])
  | subscribe _ | retry _ | stop _ => exact .keep (Or.inr (by simp)) (by simp)
  | leave _ _ | proceed _ _ | readHeight _ _ | readFailed _ _ | deliver _ _ | processFailed _ _
  | crash _ _ | streamFailed _ _ | giveUp _ _ | persist _ _ | interrupt _ _ | join _ _
  | close _ => exact .keep (Or.inr (by simp)) rfl

/-- However the sessions of a synchronizer end, its delays are those of the policy. -/
theorem retryPolicy_paced {st : σ} {trace : List (Event ℕ)}
    (h : Observed (Step b) retryEvent ⟨.init, st⟩ trace s) :
    retryPolicy.Paced trace s.sync.currentBackoff := by
  refine .of_observed (fun s : System σ => s.sync.currentBackoff) h rfl ?_
  intro s a t hreach hstep
  have hidle : s.sync.IdleBefore :=
    @Reaches.invariant _ _ _ _ _ _ (fun s : System σ => s.sync.IdleBefore) hreach (fun _ => rfl)
      fun _ _ _ hs _ hstep => Sync.IdleBefore.step hs hstep
  exact retryPolicy_moves hidle hstep

theorem nextBackoff_bounds (d : ℕ) (h : 1 ≤ d ∧ d ≤ maxBackoff) :
    d ≤ nextBackoff d ∧ nextBackoff d ≤ maxBackoff := by
  unfold nextBackoff
  omega

/-- The smaller of twice the delay and the cap is never above the cap. -/
theorem retry_respects {st : σ} {trace : List (Event ℕ)}
    (h : Observed (Step b) retryEvent ⟨.init, st⟩ trace s) : Respects 1 maxBackoff trace := by
  have hpaced := retryPolicy_paced h
  have hinit : 1 ≤ retryPolicy.initial ∧ retryPolicy.initial ≤ maxBackoff := by decide
  have hnext : ∀ d, 1 ≤ d ∧ d ≤ maxBackoff → 1 ≤ nextBackoff d ∧ nextBackoff d ≤ maxBackoff := by
    intro d hd
    obtain ⟨hle, hcap⟩ := nextBackoff_bounds d hd
    exact ⟨hd.1.trans hle, hcap⟩
  refine hpaced.respects (fun d => 1 ≤ d ∧ d ≤ maxBackoff) hinit hnext ?_ ?_
  · exact fun d hd => ⟨hd.1, (nextBackoff_bounds d hd).1⟩
  · exact fun d hd => ((hpaced.forall_slept _ hinit hnext).2 d hd).2

section Runs

variable {s₀ : System σ} {trace : List (Event ℕ)}

theorem observed_silent (h : Observed (Step b) retryEvent s₀ trace s)
    (hstep : Step b s .internal t) (hplace : t.sync.pc.place ≠ .top) :
    Observed (Step b) retryEvent s₀ trace t :=
  h.silent hstep (shown_eq_none (Or.inr hplace))

/-- The loop is at its top, and goes on. -/
structure AtTop (st : σ) (s : System σ) : Prop where
  pc : s.sync.pc = .top
  ctxDone : s.sync.ctxDone = false
  store : s.store = st

/-- As long as the store can be read, a session may end in any way. -/
theorem exists_retry_round {st : σ} {fault : Option Text} {n : ℕ}
    (hread : b.height fault st = .ok n) (ending : Ending) (s : System σ) (hs : AtTop st s) :
    ∃ e t, Observed (Step b) retryEvent s [e] t ∧ e.ending = ending ∧ AtTop st t := by
  obtain ⟨s, st⟩ := s
  obtain ⟨hpc, hctx, rfl⟩ := hs
  change s.ctxDone = false at hctx
  have hreading : Observed (Step b) retryEvent ⟨s, st⟩ [] _ :=
    observed_silent .refl (.proceed hpc hctx) (by simp)
  have hsubscribing := observed_silent hreading (.readHeight rfl hread) (by simp)
  have hstreaming := observed_silent hsubscribing (.subscribe rfl) (by simp)
  cases ending with
  | clean =>
      refine ⟨.fresh, _, hstreaming.event (.streamEnd rfl) rfl, rfl, rfl, ?_, rfl⟩
      simp [hctx]
  | error =>
      have hfailed := observed_silent hstreaming (.streamFailed [.lit "unavailable"] rfl) (by simp)
      have hretrying := observed_silent hfailed (.persist rfl (by simp [hctx])) (by simp)
      have hsleeping := observed_silent hretrying (.retry rfl) (by simp)
      refine ⟨.slept _, _, hsleeping.event (.wake rfl) rfl, rfl, rfl, ?_, rfl⟩
      simp [hctx]

/-- Every sequence of endings is that of a run. -/
theorem exists_retry_run {st : σ} {fault : Option Text} {n : ℕ}
    (hread : b.height fault st = .ok n) (endings : List Ending) :
    ∃ trace s, Observed (Step b) retryEvent ⟨.init, st⟩ trace s ∧
      trace.map Event.ending = endings := by
  have hstart : Observed (Step b) retryEvent ⟨.init, st⟩ [] _ :=
    Observed.refl.silent (.start rfl) rfl
  have htop : AtTop st ⟨{ Sync.init with state := .starting, pc := .top }, st⟩ := ⟨rfl, rfl, rfl⟩
  obtain ⟨trace, s, hrun, hendings⟩ :=
    Observed.rounds Event.ending (exists_retry_round hread) endings htop
  exact ⟨trace, s, hstart.trans hrun, hendings⟩

end Runs

end Network

namespace Notification

open Network.FabricX

variable {f g : Listener} {a : ListenerLabel}

/-- `backoff` of `FinalityListener.Start`, in milliseconds. -/
def reconnectPolicy : Policy ℕ where
  initial := initBackoff
  next := fun backoff => if backoff < maxBackoff then backoff * 2 else backoff

@[simp] def StartPc.place : StartPc → Place
  | .top => .top
  | .running _ => .session
  | .sleeping => .sleeping
  | .returned => .elsewhere

/-- What a step shows of the delays. -/
def reconnectEvent (f : Listener) (_ : ListenerLabel) (g : Listener) : Option (Event ℕ) :=
  shown f.backoff f.pc.place g.pc.place

theorem reconnectPolicy_moves (h : ListenerStep f a g) :
    reconnectPolicy.Moves f.backoff (reconnectEvent f a g) g.backoff := by
  cases h with
  | close hpc _ _ _ =>
      simp only [reconnectEvent, shown, hpc, StartPc.place]
      exact .fresh
  | wake hpc =>
      simp only [reconnectEvent, shown, hpc, StartPc.place]
      exact .slept
  | stop _ _ | connect _ _ | disconnect _ _ _ _ | interrupt _ _ =>
      exact .keep (Or.inr (by simp)) rfl
  | _ => exact .keep (Or.inl rfl) rfl

/-- However the sessions of a listener end, its delays are those of the policy. -/
theorem reconnectPolicy_paced {trace : List (Event ℕ)}
    (h : Observed ListenerStep reconnectEvent .init trace f) :
    reconnectPolicy.Paced trace f.backoff :=
  .of_observed Listener.backoff h rfl fun _ _ _ _ hstep => reconnectPolicy_moves hstep

theorem le_reconnectPolicy_next (d : ℕ) : d ≤ reconnectPolicy.next d := by
  simp only [reconnectPolicy]
  split <;> omega

/-- From the seventh error in a row on the delay is 32 s, until a clean end. -/
theorem reconnect_respects_iff {trace : List (Event ℕ)}
    (h : Observed ListenerStep reconnectEvent .init trace f) :
    Respects initBackoff maxBackoff trace ↔
      ¬ List.replicate 7 .error <:+: trace.map Event.ending := by
  have hpaced := reconnectPolicy_paced h
  rw [← hpaced.le_cap_iff maxBackoff 6 (by decide) (by decide)]
  constructor
  · exact fun hrespects => hrespects.le_cap
  · intro hcap
    refine hpaced.respects (fun d => initBackoff ≤ d) (Nat.le_refl _) ?_ ?_ hcap
    · exact fun d hd => hd.trans (le_reconnectPolicy_next d)
    · exact fun d hd => ⟨hd, le_reconnectPolicy_next d⟩

section Runs

theorem reaches_notify_error :
    ∃ err n, Reaches NotifyStep (fun _ a => a = .internal) .init n ∧ n.pc = .returned (some err) :=
  ⟨_, _, Reaches.refl.step rfl (.openFails [.lit "unavailable"] rfl), rfl⟩

/-- The receive loop fails, and `Notify` finds its context done before it looks at the error. -/
theorem reaches_notify_nil :
    ∃ n, Reaches NotifyStep (fun _ a => a = .internal) .init n ∧ n.pc = .returned none := by
  have hopen : Reaches NotifyStep (fun _ a => a = .internal) .init _ :=
    Reaches.refl.step rfl (.opens rfl)
  have hfailed := hopen.step rfl (.recvFails [.lit "reset"] rfl)
  have hposting := hfailed.step rfl (.recvReports rfl rfl)
  have hcancelling := hposting.step rfl (.recvPosts rfl rfl)
  have hexited := hcancelling.step rfl (.recvCancels rfl)
  exact ⟨_, hexited.step rfl (.returnsNil rfl rfl), rfl⟩

/-- The loop has connected, and the session has returned. -/
theorem exists_returned {err : Option Text} (hpc : f.pc = .top) (hctx : f.ctxDone = false)
    (hnotify : ∃ n, Reaches NotifyStep (fun _ a => a = .internal) .init n ∧ n.pc = .returned err) :
    ∃ g k σ, Observed ListenerStep reconnectEvent f [] g ∧ g.pc = .running k ∧
      g.ctxDone = false ∧ g.sessions[k]? = some σ ∧ σ.notify.pc = .returned err := by
  obtain ⟨n, hrun, hn⟩ := hnotify
  have hconnect : Observed ListenerStep reconnectEvent f [] _ :=
    Observed.refl.silent (.connect hpc hctx) (shown_eq_none (Or.inr (by simp)))
  have hk : (f.sessions ++ [Session.new])[f.sessions.length]? = some Session.new :=
    List.getElem?_concat_length
  have hreturned := invariant_notify (P := Observed ListenerStep reconnectEvent f []) hconnect hk
    hrun fun g τ m hg hτ hstep =>
      hg.silent (.notify hτ (Or.inl rfl) hstep) (shown_eq_none (Or.inl rfl))
  exact ⟨_, _, _, hreturned, rfl, hctx, getElem?_set_of_some hk _, hn⟩

theorem exists_reconnect_round (ending : Ending) (f : Listener)
    (hf : f.pc = .top ∧ f.ctxDone = false) :
    ∃ e g, Observed ListenerStep reconnectEvent f [e] g ∧ e.ending = ending ∧
      g.pc = .top ∧ g.ctxDone = false := by
  cases ending with
  | clean =>
      obtain ⟨g, k, σ, hrun, hpc, hctx, hk, hret⟩ := exists_returned hf.1 hf.2 reaches_notify_nil
      refine ⟨.fresh, _, hrun.event (.close hpc hk hret (Or.inl rfl)) ?_, rfl, rfl, hctx⟩
      simp only [reconnectEvent, shown, hpc, StartPc.place]
  | error =>
      obtain ⟨err, herr⟩ := reaches_notify_error
      obtain ⟨g, k, σ, hrun, hpc, hctx, hk, hret⟩ := exists_returned hf.1 hf.2 herr
      have hsleeping := hrun.silent (.disconnect hpc hk hret hctx)
        (shown_eq_none (Or.inr (by simp)))
      exact ⟨.slept _, _, hsleeping.event (.wake rfl) rfl, rfl, rfl, hctx⟩

/-- Every sequence of endings is that of a run. -/
theorem exists_reconnect_run (endings : List Ending) :
    ∃ trace f, Observed ListenerStep reconnectEvent .init trace f ∧
      trace.map Event.ending = endings :=
  Observed.rounds Event.ending exists_reconnect_round endings ⟨rfl, rfl⟩

end Runs

/-- However sessions end, the delays of a synchronizer respect its cap; those of a
listener do exactly as long as no seven sessions in a row end with an error. -/
theorem reconnect_delays_capped_iff {σ Fate : Type} {b : Network.Backend σ Fate} {st : σ}
    {s : Network.System σ} {retries reconnects : List (Event ℕ)}
    (hsync : Observed (Network.Step b) Network.retryEvent ⟨.init, st⟩ retries s)
    (hlistener : Observed ListenerStep reconnectEvent .init reconnects f) :
    Respects 1 Network.maxBackoff retries ∧
      (Respects initBackoff maxBackoff reconnects ↔
        ¬ List.replicate 7 .error <:+: reconnects.map Event.ending) :=
  ⟨Network.retry_respects hsync, reconnect_respects_iff hlistener⟩

/-- Eight errors of the synchronizer, and six of the listener before a clean end. -/
theorem reconnect_delays_capped_sample :
    ∃ retries s reconnects f,
      Observed (Network.Step Network.sampleBackend) Network.retryEvent ⟨.init, 7⟩ retries s ∧
        Observed ListenerStep reconnectEvent .init reconnects f ∧
        retries.map Event.ending = List.replicate 8 .error ∧
        reconnects.map Event.ending = List.replicate 6 .error ++ [.clean, .error] ∧
        Respects 1 Network.maxBackoff retries ∧ Respects initBackoff maxBackoff reconnects := by
  obtain ⟨retries, s, hsync, hretries⟩ :=
    @Network.exists_retry_run _ _ Network.sampleBackend 7 none 7 rfl (List.replicate 8 .error)
  obtain ⟨reconnects, f, hlistener, hreconnects⟩ :=
    exists_reconnect_run (List.replicate 6 .error ++ [.clean, .error])
  obtain ⟨hcap, hiff⟩ := reconnect_delays_capped_iff hsync hlistener
  refine ⟨retries, s, reconnects, f, hsync, hlistener, hretries, hreconnects, hcap, hiff.mpr ?_⟩
  rw [hreconnects]
  decide

/-- The seventh error in a row of the listener: it sleeps for 32 s. -/
theorem reconnect_exceeds_cap :
    ∃ reconnects f, Observed ListenerStep reconnectEvent .init reconnects f ∧
      reconnects.map Event.ending = List.replicate 7 .error ∧
      .slept 32000 ∈ reconnects ∧ maxBackoff < 32000 ∧
      ¬ Respects initBackoff maxBackoff reconnects := by
  obtain ⟨reconnects, f, hlistener, hendings⟩ := exists_reconnect_run (List.replicate 7 .error)
  have hslept : .slept 32000 ∈ reconnects := by
    refine (reconnectPolicy_paced hlistener).mem_slept_iff.mpr ⟨6, ?_, rfl⟩
    rw [hendings]
  refine ⟨reconnects, f, hlistener, hendings, hslept, by decide, ?_⟩
  intro hrespects
  exact absurd (hrespects.le_cap 32000 hslept) (by decide)

end Notification

end FabricXSdk
