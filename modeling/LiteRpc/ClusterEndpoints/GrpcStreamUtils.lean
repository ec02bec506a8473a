import LiteRpc.Tokio.Broadcast

/-!
# The grpc pluggers: a source relayed into a broadcast channel

`spawn_plugger_mpcs_to_broadcast` and `channelize_stream`
(`cluster-endpoints/src/grpc_stream_utils.rs`) spawn the same task: take the next
value of a source (an `mpsc` receiver, or a stream), `send` it into a broadcast
channel, skip it when the channel has no receiver, and end when the source is
closed.  The system is the source with its producers, the task, and the
channel with its receivers, all running at once: `Step` has one case per thing
that can happen, and `plugTurn`, one turn of the task's loop, is the only one
translated from the sources.  The channel counts its `Sender`s: the task holds
one, and the caller may have kept clones (`otherSenders`), which it can clone
again or drop at any time.  The task's end drops its own, so the channel closes
once the others are gone too: at once when the task held the only one, as it
does for `channelize_stream`, which makes the channel.

The source's comment promises three things, and over every interleaving
(`Reachable`) they hold:

* **backpressure is not propagated upstream**: a turn never waits on the
  channel, only on an empty, open source (`plugTurn_isSome`), and a slow receiver
  loses values (it lags) rather than slowing the task (`Receiver.recv`);
* **the service shuts down when the source is closed**: the task then drains
  the source and ends within `|source| + 1` turns, whatever the receivers do, and
  drops its `Sender` (`spawnPluggerMpcsToBroadcast_shuts_down`);
* **the service does not shut down when the channel has no receiver**: a task
  that cannot be aborted has stopped only when its source was closed and
  drained (`Relay.Sound.stopped`).

Besides, the values leave the source in order, each once, and the channel
carries exactly those it accepted, a value being dropped exactly when no
receiver is alive at its send (`Relay.Sound`); so the receiver that
`channelize_stream` hands back reads every value of the stream, in order, as
long as it is alive and never lags (`channelizeStream_delivers`).
-/

namespace LiteRpc.ClusterEndpoints

open LiteRpc.Tokio

/-- The whole system around a plugger task. -/
structure Relay (T : Type) where
  /-- The values waiting in the source, oldest first. -/
  upstream : List T
  /-- Whether the source is closed: every `mpsc::Sender` dropped, or the stream at
  its end.  A closed source still yields the values it holds. -/
  upstreamClosed : Bool
  /-- The broadcast channel. -/
  chan : Channel T
  /-- The channel's `Sender`s held outside the task: the clones the caller kept. -/
  otherSenders : Nat
  /-- Whether the task is running. -/
  running : Bool
  /-- Whether the task can be aborted: `channelize_stream` hands back its
  `AbortHandle`, `spawn_plugger_mpcs_to_broadcast` drops its `JoinHandle`. -/
  abortable : Bool
  /-- Ghost: whether the task was aborted. -/
  aborted : Bool
  /-- Ghost: every value put into the source, oldest first. -/
  pushed : List T
  /-- Ghost: every value the task took, with whether `send` accepted it. -/
  taken : List (T × Bool)

variable {T : Type}

/-- The end of the task: its `Sender` is dropped. -/
def Relay.stop (s : Relay T) : Relay T := { s with running := false, chan := s.chan.dropSender }

/-- The body of the task's loop once the source has yielded `msg`:
`downstream.send(msg)`, and on a `SendError` (no receiver) the value is skipped,
`continue 'main_loop`. -/
def Relay.forward (s : Relay T) (msg : T) (rest : List T) : Relay T :=
  match s.chan.send msg with
  | .ok (chan, _receivers) => { s with upstream := rest, chan, taken := s.taken ++ [(msg, true)] }
  | .error _ => { s with upstream := rest, taken := s.taken ++ [(msg, false)] }

/-- One turn of the task's ''main_loop'': `upstream.recv().await` (or
`source_stream.next().await`) yields a value, which is forwarded, or `None` on a
closed and drained source, which ends the task; `none` when the turn waits on an
empty, open source. -/
def plugTurn (s : Relay T) : Option (Relay T) :=
  match s.upstream with
  | msg :: rest => some (s.forward msg rest)
  | [] => if s.upstreamClosed then some s.stop else none

/-- `spawn_plugger_mpcs_to_broadcast(upstream, downstream, _)`: the task starts on
the values waiting in `upstream` and on the given channel, holding the `Sender`
`downstream`; the channel's other senders stay with the caller. -/
def spawnPluggerMpcsToBroadcast (upstream : List T) (upstreamClosed : Bool)
    (downstream : Channel T) : Relay T :=
  { upstream, upstreamClosed, chan := downstream, otherSenders := downstream.senders - 1,
    running := true, abortable := false, aborted := false, pushed := upstream, taken := [] }

/-- `channelize_stream(grpc_source_stream, broadcast_channel_capacity)`: a new
channel, whose receiver (index `0`) is handed back with the task's `AbortHandle`. -/
def channelizeStream (grpcSourceStream : List T) (streamEnded : Bool)
    (broadcastChannelCapacity : Nat) : Except String (Relay T) := do
  let chan ← channel broadcastChannelCapacity
  return { upstream := grpcSourceStream, upstreamClosed := streamEnded, chan, otherSenders := 0,
           running := true, abortable := true, aborted := false, pushed := grpcSourceStream,
           taken := [] }

/-- Everything that can happen in the system. -/
inductive Step : Relay T → Relay T → Prop
  /-- A producer puts a value into the open source. -/
  | push (s : Relay T) (msg : T) (h : s.upstreamClosed = false) :
      Step s { s with upstream := s.upstream ++ [msg], pushed := s.pushed ++ [msg] }
  /-- The source closes. -/
  | closeUpstream (s : Relay T) : Step s { s with upstreamClosed := true }
  /-- A new receiver subscribes. -/
  | subscribe (s : Relay T) : Step s { s with chan := s.chan.subscribe }
  /-- Receiver `i` is dropped. -/
  | dropReceiver (s : Relay T) (i : Nat) : Step s { s with chan := s.chan.dropReceiver i }
  /-- Receiver `i` calls `recv`. -/
  | recv (s : Relay T) (i : Nat) : Step s { s with chan := s.chan.recv i }
  /-- A sender held outside the task is cloned. -/
  | cloneSender (s : Relay T) (h : 0 < s.otherSenders) :
      Step s { s with chan := s.chan.cloneSender, otherSenders := s.otherSenders + 1 }
  /-- A sender held outside the task is dropped. -/
  | dropSender (s : Relay T) (h : 0 < s.otherSenders) :
      Step s { s with chan := s.chan.dropSender, otherSenders := s.otherSenders - 1 }
  /-- The task runs one turn of its loop. -/
  | plug (s t : Relay T) (h : s.running = true) (ht : plugTurn s = some t) : Step s t
  /-- The task is aborted through its `AbortHandle`. -/
  | abort (s : Relay T) (h : s.abortable = true) (hr : s.running = true) :
      Step s { s.stop with aborted := true }

/-- The states the system can reach from `s₀`. -/
inductive Reachable (s₀ : Relay T) : Relay T → Prop
  | refl : Reachable s₀ s₀
  | tail {s t : Relay T} : Reachable s₀ s → Step s t → Reachable s₀ t

/-! ## One turn of the task -/

section Turn

variable (s : Relay T) (msg : T) (rest : List T)

/-- A forwarded value is accepted exactly when a receiver is alive. -/
theorem forward_eq : s.forward msg rest =
    { s with upstream := rest,
             chan := if 0 < s.chan.rxCnt then { s.chan with sent := s.chan.sent ++ [msg] } else s.chan,
             taken := s.taken ++ [(msg, decide (0 < s.chan.rxCnt))] } := by
  unfold Relay.forward Channel.send
  by_cases h : s.chan.rxCnt = 0
  · simp [h]
  · simp [h, Nat.pos_of_ne_zero h]

/-- What a turn can do: forward the source's next value, or end the task on a
closed, drained source. -/
theorem plugTurn_eq_some {t : Relay T} (h : plugTurn s = some t) :
    (∃ m rest, s.upstream = m :: rest ∧ t = s.forward m rest) ∨
      (s.upstream = [] ∧ s.upstreamClosed = true ∧ t = s.stop) := by
  unfold plugTurn at h
  split at h
  · next m rest hu => exact .inl ⟨m, rest, hu, (Option.some.inj h).symm⟩
  · next hu =>
    split at h
    · next hc => exact .inr ⟨hu, hc, (Option.some.inj h).symm⟩
    · cases h

/-- **No backpressure.**  A turn waits only on an empty, open source: whatever the
receivers and the channel's buffer, a value in the source, or its end, is
handled at once. -/
theorem plugTurn_isSome (h : s.upstream ≠ [] ∨ s.upstreamClosed = true) :
    (plugTurn s).isSome := by
  unfold plugTurn
  split
  · rfl
  · next hu =>
    rcases h with h | h
    · exact absurd hu h
    · simp [h]

end Turn

/-! ## What holds of every reachable state -/

/-- The invariant of the relay, from the state `s₀` it started in. -/
structure Relay.Sound (s₀ s : Relay T) : Prop where
  /-- The values leave the source in order, each exactly once. -/
  taken_upstream : s.taken.map Prod.fst ++ s.upstream = s.pushed
  /-- The channel carries exactly the values it accepted from the task. -/
  sent_eq : s.chan.sent = s₀.chan.sent ++ (s.taken.filter Prod.snd).map Prod.fst
  /-- The task has stopped only on a closed, drained source, or by an abort. -/
  stopped : s.running = false → (s.upstreamClosed = true ∧ s.upstream = []) ∨ s.aborted = true
  abortable_eq : s.abortable = s₀.abortable
  aborted_abortable : s.aborted = true → s.abortable = true
  /-- Every live receiver reads in order what was sent since it subscribed. -/
  chan_valid : s.chan.Valid

section Sound

variable {s₀ s : Relay T}

theorem Relay.Sound.forward (h : Relay.Sound s₀ s) (hr : s.running = true) {m : T}
    {rest : List T} (hu : s.upstream = m :: rest) : Relay.Sound s₀ (s.forward m rest) := by
  rw [forward_eq]
  exact { taken_upstream := by simp [← h.taken_upstream, hu]
          sent_eq := by split_ifs with hpos <;> simp [hpos, h.sent_eq, List.filter_append]
          stopped := fun h' => absurd (hr.symm.trans h') (by decide)
          abortable_eq := h.abortable_eq
          aborted_abortable := h.aborted_abortable
          chan_valid := by split_ifs; exacts [h.chan_valid.send m, h.chan_valid] }

/-- Every step keeps the relay sound. -/
theorem Relay.Sound.step (h : Relay.Sound s₀ s) {t : Relay T} (hst : Step s t) :
    Relay.Sound s₀ t := by
  cases hst with
  | push msg hc =>
    exact { h with
      taken_upstream := by rw [← List.append_assoc, h.taken_upstream]
      stopped := fun hr => .inr ((h.stopped hr).resolve_left fun ⟨hc', _⟩ => by simp [hc] at hc') }
  | closeUpstream =>
    exact { h with stopped := fun hr => (h.stopped hr).imp (fun ⟨_, hu⟩ => ⟨rfl, hu⟩) id }
  | subscribe => exact { h with chan_valid := h.chan_valid.subscribe }
  | dropReceiver i => exact { h with chan_valid := h.chan_valid.dropReceiver i }
  | recv i => exact { h with sent_eq := by simpa using h.sent_eq, chan_valid := h.chan_valid.recv i }
  | cloneSender => exact { h with chan_valid := h.chan_valid.cloneSender }
  | dropSender => exact { h with chan_valid := h.chan_valid.dropSender }
  | plug t hr ht =>
    rcases plugTurn_eq_some s ht with ⟨m, rest, hu, rfl⟩ | ⟨hu, hc, rfl⟩
    · exact h.forward hr hu
    · exact { h with stopped := fun _ => .inl ⟨hc, hu⟩, chan_valid := h.chan_valid.dropSender }
  | abort ha _ =>
    exact { h with
      stopped := fun _ => .inr rfl
      aborted_abortable := fun _ => ha
      chan_valid := h.chan_valid.dropSender }

theorem Reachable.sound (h₀ : Relay.Sound s₀ s₀) (h : Reachable s₀ s) : Relay.Sound s₀ s := by
  induction h with
  | refl => exact h₀
  | tail _ hst ih => exact ih.step hst

end Sound

/-! ## `spawn_plugger_mpcs_to_broadcast` -/

section Spawn

variable (upstream : List T) (upstreamClosed : Bool) (downstream : Channel T)

theorem sound_spawnPluggerMpcsToBroadcast (hv : downstream.Valid) :
    Relay.Sound (spawnPluggerMpcsToBroadcast upstream upstreamClosed downstream)
      (spawnPluggerMpcsToBroadcast upstream upstreamClosed downstream) where
  taken_upstream := rfl
  sent_eq := by simp [spawnPluggerMpcsToBroadcast]
  stopped h := nomatch h
  abortable_eq := rfl
  aborted_abortable h := nomatch h
  chan_valid := hv

theorem stopped_of_spawnPluggerMpcsToBroadcast (hv : downstream.Valid) {s : Relay T}
    (h : Reachable (spawnPluggerMpcsToBroadcast upstream upstreamClosed downstream) s)
    (hr : s.running = false) : s.upstreamClosed = true ∧ s.upstream = [] := by
  have hs := h.sound (sound_spawnPluggerMpcsToBroadcast upstream upstreamClosed downstream hv)
  refine (hs.stopped hr).resolve_right fun ha => ?_
  have := hs.abortable_eq ▸ hs.aborted_abortable ha
  cases this

/-- **`spawn_plugger_mpcs_to_broadcast` relays its source faithfully and runs
until the source is closed.**  In every state the system can reach, whatever
producers, receivers and the task did in between: the values taken from the
source are the values put into it, in order and each once; the channel carries
after its earlier values exactly those the task could send, that is those that
found a live receiver; the task has stopped only when the source was closed and
drained, never because the channel had no receiver; and every live receiver has
read, in order and never twice, values sent since it subscribed, all of them if it
never lagged. -/
theorem spawnPluggerMpcsToBroadcast_sound (hv : downstream.Valid) {s : Relay T}
    (h : Reachable (spawnPluggerMpcsToBroadcast upstream upstreamClosed downstream) s) :
    s.taken.map Prod.fst ++ s.upstream = s.pushed ∧
      s.chan.sent = downstream.sent ++ (s.taken.filter Prod.snd).map Prod.fst ∧
      (s.running = false → s.upstreamClosed = true ∧ s.upstream = []) ∧
      s.chan.Valid := by
  have hs := h.sound (sound_spawnPluggerMpcsToBroadcast upstream upstreamClosed downstream hv)
  exact ⟨hs.taken_upstream, hs.sent_eq,
    stopped_of_spawnPluggerMpcsToBroadcast upstream upstreamClosed downstream hv h, hs.chan_valid⟩

end Spawn

/-- The channel `broadcast::channel(4)` makes, with its one receiver. -/
def sevenChannel : Channel Nat :=
  { bufferLen := Nat.nextPowerOfTwo 4, sent := [], receivers := [some ⟨0, 0, [], false⟩],
    senders := 1 }

/-- The plugger on a closed source holding `7`, once it has sent `7`. -/
def sentSeven : Relay Nat := (spawnPluggerMpcsToBroadcast [7] true sevenChannel).forward 7 []

theorem sevenChannel_valid : sevenChannel.Valid := fun r hr => by
  cases List.mem_singleton.1 hr
  exact { start_le := le_rfl, next_le := le_rfl, got_sublist := List.nil_sublist _,
          got_eq := fun _ => rfl }

theorem reachable_sentSeven : Reachable (spawnPluggerMpcsToBroadcast [7] true sevenChannel) sentSeven :=
  .tail .refl (.plug _ _ rfl rfl)

theorem sentSeven_sound :
    sevenChannel.Valid ∧ Reachable (spawnPluggerMpcsToBroadcast [7] true sevenChannel) sentSeven ∧
      (sentSeven.taken.map Prod.fst ++ sentSeven.upstream = sentSeven.pushed ∧
        sentSeven.chan.sent = sevenChannel.sent ++ (sentSeven.taken.filter Prod.snd).map Prod.fst ∧
        (sentSeven.running = false → sentSeven.upstreamClosed = true ∧ sentSeven.upstream = []) ∧
        sentSeven.chan.Valid) :=
  ⟨sevenChannel_valid, reachable_sentSeven,
    spawnPluggerMpcsToBroadcast_sound [7] true sevenChannel sevenChannel_valid reachable_sentSeven⟩

/-! ## The end of the source -/

/-- The task's own turns, at most `fuel` of them, while it runs and its source
does not leave it waiting. -/
def plugRun : Nat → Relay T → Relay T
  | 0, s => s
  | fuel + 1, s =>
    if s.running then
      match plugTurn s with
      | some t => plugRun fuel t
      | none => s
    else s

section Run

variable {s₀ : Relay T}

theorem plugRun_reachable : ∀ (fuel : Nat) {s : Relay T}, Reachable s₀ s → Reachable s₀ (plugRun fuel s)
  | 0, _, h => h
  | fuel + 1, s, h => by
    unfold plugRun
    split
    · next hr =>
      split
      · next t ht => exact plugRun_reachable fuel (h.tail (.plug s t hr ht))
      · exact h
    · exact h

theorem plugTurn_cons {s : Relay T} {m : T} {rest : List T} (hu : s.upstream = m :: rest) :
    plugTurn s = some (s.forward m rest) := by
  rw [plugTurn, hu]

theorem plugTurn_nil {s : Relay T} (hu : s.upstream = []) (hc : s.upstreamClosed = true) :
    plugTurn s = some s.stop := by
  rw [plugTurn, hu]
  simp [hc]

/-- On a closed source the task's own turns stop it, one turn for each value
still in the source and one for its end. -/
theorem plugRun_stops (n : Nat) : ∀ s : Relay T, s.upstream.length = n →
    s.upstreamClosed = true → (plugRun (n + 1) s).running = false := by
  induction n with
  | zero =>
    intro s hn hc
    unfold plugRun
    split
    · rw [plugTurn_nil (List.eq_nil_of_length_eq_zero hn) hc]
      rfl
    · next hr => simpa using hr
  | succ n ih =>
    intro s hn hc
    obtain ⟨m, rest, hu⟩ := List.exists_cons_of_length_eq_add_one hn
    unfold plugRun
    split
    · rw [plugTurn_cons hu]
      exact ih _ (by rw [forward_eq]; simpa [hu] using hn) (by rw [forward_eq]; exact hc)
    · next hr => simpa using hr

end Run

/-! ## The senders -/

/-- The channel's senders are the task's own, while it runs, and those held outside. -/
def Relay.SendersHeld (s : Relay T) : Prop :=
  s.chan.senders = s.otherSenders + if s.running then 1 else 0

/-- Every step keeps the count of the senders. -/
theorem Relay.SendersHeld.step {s t : Relay T} (h : s.SendersHeld) (hst : Step s t) :
    t.SendersHeld := by
  unfold Relay.SendersHeld at h ⊢
  cases hst with
  | push | closeUpstream => exact h
  | subscribe | dropReceiver | recv => simpa using h
  | cloneSender => simp only [cloneSender_senders, h]; omega
  | dropSender ho => simp only [dropSender_senders, h]; omega
  | plug t hr ht =>
    rw [hr, if_pos rfl] at h
    rcases plugTurn_eq_some s ht with ⟨m, rest, -, rfl⟩ | ⟨-, -, rfl⟩
    · rw [forward_eq]
      split_ifs <;> exact h
    · simp only [Relay.stop, dropSender_senders, h]
      rfl
  | abort _ hr =>
    simp only [Relay.stop, dropSender_senders, h, hr, if_true]
    rfl

/-- No sender is held outside the task, ever, when none was at the start: only a
sender held outside can be cloned. -/
theorem Relay.otherSenders_step {s t : Relay T} (h : s.otherSenders = 0) (hst : Step s t) :
    t.otherSenders = 0 := by
  cases hst with
  | cloneSender ho | dropSender ho => omega
  | plug t _ ht =>
    rcases plugTurn_eq_some s ht with ⟨m, rest, -, rfl⟩ | ⟨-, -, rfl⟩
    · rw [forward_eq]
      exact h
    · exact h
  | _ => exact h

section Senders

variable {s₀ s : Relay T}

theorem Reachable.sendersHeld (h₀ : s₀.SendersHeld) (h : Reachable s₀ s) : s.SendersHeld := by
  induction h with
  | refl => exact h₀
  | tail _ hst ih => exact ih.step hst

theorem Reachable.otherSenders_eq_zero (h₀ : s₀.otherSenders = 0) (h : Reachable s₀ s) :
    s.otherSenders = 0 := by
  induction h with
  | refl => exact h₀
  | tail _ hst ih => exact Relay.otherSenders_step ih hst

end Senders

section Shutdown

variable (upstream : List T) (upstreamClosed : Bool) (downstream : Channel T)

/-- **`spawn_plugger_mpcs_to_broadcast` shuts down once its source is closed.**
From every state the system can reach in which the source is closed, the task's
own next `|source| + 1` turns, which nothing else can hold up, reach a state of
the system in which the task has stopped, has taken every value put into the
source, and has dropped its `Sender`: the channel's senders are then those held
outside the task, so that the channel is closed when the task held the only one. -/
theorem spawnPluggerMpcsToBroadcast_shuts_down (hv : downstream.Valid) (hsend : 0 < downstream.senders)
    {s : Relay T} (h : Reachable (spawnPluggerMpcsToBroadcast upstream upstreamClosed downstream) s)
    (hc : s.upstreamClosed = true) :
    Reachable (spawnPluggerMpcsToBroadcast upstream upstreamClosed downstream)
        (plugRun (s.upstream.length + 1) s) ∧
      (plugRun (s.upstream.length + 1) s).running = false ∧
      (plugRun (s.upstream.length + 1) s).taken.map Prod.fst =
        (plugRun (s.upstream.length + 1) s).pushed ∧
      (plugRun (s.upstream.length + 1) s).chan.senders =
        (plugRun (s.upstream.length + 1) s).otherSenders ∧
      (downstream.senders = 1 → (plugRun (s.upstream.length + 1) s).chan.senders = 0) := by
  have ht := plugRun_reachable (s.upstream.length + 1) h
  have hstop := plugRun_stops _ s rfl hc
  have hs := ht.sound (sound_spawnPluggerMpcsToBroadcast upstream upstreamClosed downstream hv)
  have hdrained := (stopped_of_spawnPluggerMpcsToBroadcast upstream upstreamClosed downstream hv ht
    hstop).2
  have hheld := ht.sendersHeld (by
    simp only [Relay.SendersHeld, spawnPluggerMpcsToBroadcast, if_true]
    omega)
  rw [Relay.SendersHeld, hstop, if_neg (by decide), Nat.add_zero] at hheld
  refine ⟨ht, hstop, by simpa [hdrained] using hs.taken_upstream, hheld, fun hone => ?_⟩
  rw [hheld]
  exact ht.otherSenders_eq_zero (by simp [spawnPluggerMpcsToBroadcast, hone])

end Shutdown

theorem sentSeven_shuts_down :
    sevenChannel.Valid ∧ 0 < sevenChannel.senders ∧
      Reachable (spawnPluggerMpcsToBroadcast [7] true sevenChannel) sentSeven ∧
      sentSeven.upstreamClosed = true ∧
      (Reachable (spawnPluggerMpcsToBroadcast [7] true sevenChannel)
          (plugRun (sentSeven.upstream.length + 1) sentSeven) ∧
        (plugRun (sentSeven.upstream.length + 1) sentSeven).running = false ∧
        (plugRun (sentSeven.upstream.length + 1) sentSeven).taken.map Prod.fst =
          (plugRun (sentSeven.upstream.length + 1) sentSeven).pushed ∧
        (plugRun (sentSeven.upstream.length + 1) sentSeven).chan.senders =
          (plugRun (sentSeven.upstream.length + 1) sentSeven).otherSenders ∧
        (sevenChannel.senders = 1 →
          (plugRun (sentSeven.upstream.length + 1) sentSeven).chan.senders = 0)) :=
  ⟨sevenChannel_valid, Nat.one_pos, reachable_sentSeven, rfl,
    spawnPluggerMpcsToBroadcast_shuts_down [7] true sevenChannel sevenChannel_valid Nat.one_pos
      reachable_sentSeven rfl⟩

/-! ## `channelize_stream` -/

section Channelize

/-- The receiver handed back, at index `0`, subscribed at the start and, while it
is alive, every value the task took found it. -/
def FirstKept (s : Relay T) : Prop :=
  0 < s.chan.receivers.length ∧
    ∀ r, s.chan.receivers[0]? = some (some r) → r.start = 0 ∧ ∀ e ∈ s.taken, e.2 = true

theorem forward_receivers (s : Relay T) (m : T) (rest : List T) :
    (s.forward m rest).chan.receivers = s.chan.receivers := by
  rw [forward_eq]
  split_ifs <;> rfl

theorem FirstKept.step {s t : Relay T} (h : FirstKept s) (hst : Step s t) : FirstKept t := by
  obtain ⟨hlen, hfirst⟩ := h
  cases hst with
  | push msg hc => exact ⟨hlen, hfirst⟩
  | closeUpstream => exact ⟨hlen, hfirst⟩
  | subscribe =>
    refine ⟨by simp, fun r hr => hfirst r ?_⟩
    rwa [getElem?_subscribe _ hlen] at hr
  | dropReceiver i =>
    exact ⟨by simpa using hlen, fun r hr => hfirst r (getElem?_dropReceiver _ hr)⟩
  | recv i =>
    refine ⟨by simpa using hlen, fun r hr => ?_⟩
    obtain ⟨r₀, hr₀, hstart⟩ := getElem?_recv _ hr
    exact ⟨hstart.trans (hfirst r₀ hr₀).1, (hfirst r₀ hr₀).2⟩
  | plug t hr ht =>
    rcases plugTurn_eq_some s ht with ⟨m, rest, hu, rfl⟩ | ⟨hu, hc, rfl⟩
    · refine ⟨by rw [forward_receivers]; exact hlen, fun r hr => ?_⟩
      rw [forward_receivers] at hr
      obtain ⟨hstart, hall⟩ := hfirst r hr
      refine ⟨hstart, fun e he => ?_⟩
      rw [forward_eq] at he
      rcases List.mem_append.1 he with he | he
      · exact hall e he
      · cases List.mem_singleton.1 he
        simpa using rxCnt_pos _ hr
    · exact ⟨hlen, hfirst⟩
  | cloneSender _ | dropSender _ | abort _ _ => exact ⟨hlen, hfirst⟩

/-- What `channelize_stream` starts, when the capacity is accepted. -/
theorem channelizeStream_eq_ok {grpcSourceStream : List T} {streamEnded : Bool}
    {broadcastChannelCapacity : Nat} {s₀ : Relay T}
    (h : channelizeStream grpcSourceStream streamEnded broadcastChannelCapacity = .ok s₀) :
    s₀ = { upstream := grpcSourceStream, upstreamClosed := streamEnded,
           chan := { bufferLen := broadcastChannelCapacity.nextPowerOfTwo, sent := [],
                     receivers := [some ⟨0, 0, [], false⟩], senders := 1 },
           otherSenders := 0,
           running := true, abortable := true, aborted := false, pushed := grpcSourceStream,
           taken := [] } := by
  unfold channelizeStream channel at h
  split_ifs at h
  · cases h
  · cases h
  · exact (Except.ok.inj h).symm

theorem Reachable.firstKept {s₀ s : Relay T} (h₀ : FirstKept s₀) (h : Reachable s₀ s) :
    FirstKept s := by
  induction h with
  | refl => exact h₀
  | tail _ hst ih => exact ih.step hst

theorem firstKept_channelizeStream {grpcSourceStream : List T} {streamEnded : Bool}
    {broadcastChannelCapacity : Nat} {s₀ : Relay T}
    (h₀ : channelizeStream grpcSourceStream streamEnded broadcastChannelCapacity = .ok s₀) :
    FirstKept s₀ := by
  obtain rfl := channelizeStream_eq_ok h₀
  exact ⟨Nat.one_pos, fun r hr => ⟨by cases hr; rfl, fun e he => nomatch he⟩⟩

theorem sound_channelizeStream {grpcSourceStream : List T} {streamEnded : Bool}
    {broadcastChannelCapacity : Nat} {s₀ : Relay T}
    (h₀ : channelizeStream grpcSourceStream streamEnded broadcastChannelCapacity = .ok s₀) :
    Relay.Sound s₀ s₀ := by
  obtain rfl := channelizeStream_eq_ok h₀
  exact {
    taken_upstream := rfl
    sent_eq := rfl
    stopped := fun h => nomatch h
    abortable_eq := rfl
    aborted_abortable := fun _ => rfl
    chan_valid := fun r hr => by
      cases List.mem_singleton.1 hr
      exact { start_le := le_rfl, next_le := le_rfl, got_sublist := List.nil_sublist _,
              got_eq := fun _ => rfl } }

/-- **The receiver `channelize_stream` hands back reads the stream as it was
sent.**  In every state the system can reach, as long as that receiver is alive:
the values taken from the stream are the stream's, in order and each once; none
of them was dropped, so the channel carries exactly them; the receiver has read,
in order and never twice, values among them; and if it never lagged, it has read
all of them up to its position, without a gap. -/
theorem channelizeStream_delivers {grpcSourceStream : List T} {streamEnded : Bool}
    {broadcastChannelCapacity : Nat} {s₀ s : Relay T}
    (h₀ : channelizeStream grpcSourceStream streamEnded broadcastChannelCapacity = .ok s₀)
    (h : Reachable s₀ s) {r : Receiver T} (hr : s.chan.receivers[0]? = some (some r)) :
    s.taken.map Prod.fst ++ s.upstream = s.pushed ∧
      s.chan.sent = s.taken.map Prod.fst ∧
      List.Sublist r.got (s.chan.sent.take r.next) ∧
      (r.lagged = false → r.got = s.chan.sent.take r.next) := by
  have e₀ := channelizeStream_eq_ok h₀
  have hs := h.sound (sound_channelizeStream h₀)
  obtain ⟨hstart, hall⟩ := (h.firstKept (firstKept_channelizeStream h₀)).2 r hr
  have hsent : s.chan.sent = s.taken.map Prod.fst := by
    rw [hs.sent_eq, e₀, List.filter_eq_self.2 hall]
    rfl
  have hp := hs.chan_valid r (List.getElem?_mem hr)
  have hwin : (s.chan.sent.drop r.start).take (r.next - r.start) = s.chan.sent.take r.next := by
    rw [hstart, List.drop_zero, Nat.sub_zero]
  exact ⟨hs.taken_upstream, hsent, hwin ▸ hp.got_sublist, fun hl => hwin ▸ hp.got_eq hl⟩

end Channelize

/-- What `channelize_stream` starts on a stream of the one value `7`, with capacity `4`. -/
def channelizedSeven : Relay Nat :=
  { upstream := [7], upstreamClosed := true, chan := sevenChannel, otherSenders := 0, running := true,
    abortable := true, aborted := false, pushed := [7], taken := [] }

theorem channelizedSeven_delivers :
    channelizeStream [7] true 4 = .ok channelizedSeven ∧
      Reachable channelizedSeven (channelizedSeven.forward 7 []) ∧
      (channelizedSeven.forward 7 []).chan.receivers[0]? = some (some ⟨0, 0, [], false⟩) ∧
      ((channelizedSeven.forward 7 []).taken.map Prod.fst ++ (channelizedSeven.forward 7 []).upstream =
          (channelizedSeven.forward 7 []).pushed ∧
        (channelizedSeven.forward 7 []).chan.sent =
          (channelizedSeven.forward 7 []).taken.map Prod.fst ∧
        List.Sublist ([] : List Nat) ((channelizedSeven.forward 7 []).chan.sent.take 0) ∧
        (false = false → ([] : List Nat) = (channelizedSeven.forward 7 []).chan.sent.take 0)) :=
  ⟨rfl, .tail .refl (.plug _ _ rfl rfl), rfl,
    channelizeStream_delivers (show channelizeStream [7] true 4 = .ok channelizedSeven from rfl)
      (.tail .refl (.plug _ _ rfl rfl)) rfl⟩

end LiteRpc.ClusterEndpoints
