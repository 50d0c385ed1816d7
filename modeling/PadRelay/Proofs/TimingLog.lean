import Mathlib.Computability.RegularExpressions
import PadRelay.Proofs.Game.RemoteReads
import PadRelay.Proofs.Party.Identity

/-!
This module contains the proof that a log of points in time is well bracketed. An emulator and all games
made from it share one log, and whatever comes of a call, it has logged both ends of each of its
operations when it returns. The reads of a call for buttons of others lie between the ends of that call.
-/

namespace PadRelay

namespace TimingEvent

open RegularExpression
open scoped Computability

/-- Both ends of one operation. -/
def pair (before after : TimingEvent) : RegularExpression TimingEvent :=
  char before * char after

/-- What one operation of an emulator logs. -/
def operationPoints : RegularExpression TimingEvent :=
  pair plugRequest plugResponse +
    pair readyWriteStart readyWriteFinish +
    pair startReadStart startReadFinish +
    pair keyWriteStart keyWriteFinish +
    char remoteRequested * (pair keyReadStart keyReadFinish).star * char remoteReturned

/-- The logs that are well bracketed. -/
def Bracketed (points : List TimingEvent) : Prop :=
  points ∈ operationPoints.star.matches'

instance (points : List TimingEvent) : Decidable (Bracketed points) :=
  inferInstanceAs (Decidable (points ∈ operationPoints.star.matches'))

theorem mem_pair (before after : TimingEvent) : [before, after] ∈ (pair before after).matches' :=
  ⟨[before], rfl, [after], rfl, rfl⟩

theorem readPoints_mem (reads : Nat)
    : Game.readPoints reads ∈ (pair keyReadStart keyReadFinish).star.matches' := by
  apply Language.join_mem_kstar
  intro points hpoints
  rw [List.eq_of_mem_replicate hpoints]
  exact mem_pair _ _

/-- A well bracketed log with a given number of reads. -/
structure Logs (reads : Nat) (points : List TimingEvent) : Prop where
  bracketed : Bracketed points
  starts : points.count keyReadStart = reads
  finishes : points.count keyReadFinish = reads

theorem logs_nil : Logs 0 [] :=
  ⟨Language.nil_mem_kstar _, rfl, rfl⟩

theorem Logs.append {reads reads' : Nat} {points points' : List TimingEvent} (h : Logs reads points)
    (h' : Logs reads' points') : Logs (reads + reads') (points ++ points') := by
  constructor
  . have hmem := h.bracketed
    have hmem' := h'.bracketed
    unfold Bracketed at hmem hmem' ⊢
    rw [matches'_star] at hmem hmem' ⊢
    rw [← kstar_mul_kstar]
    exact Language.append_mem_mul hmem hmem'
  . rw [List.count_append, h.starts, h'.starts]
  . rw [List.count_append, h.finishes, h'.finishes]

theorem bracketed_of_mem {points : List TimingEvent} (h : points ∈ operationPoints.matches')
    : Bracketed points := by
  have hle : operationPoints.matches' ≤ operationPoints.star.matches' := le_kstar
  exact hle h

theorem logs_plug : Logs 0 [plugRequest, plugResponse] :=
  ⟨bracketed_of_mem (Or.inl (Or.inl (Or.inl (Or.inl (mem_pair _ _))))), rfl, rfl⟩

theorem logs_ready : Logs 0 [readyWriteStart, readyWriteFinish] :=
  ⟨bracketed_of_mem (Or.inl (Or.inl (Or.inl (Or.inr (mem_pair _ _))))), rfl, rfl⟩

theorem logs_start : Logs 0 [startReadStart, startReadFinish] :=
  ⟨bracketed_of_mem (Or.inl (Or.inl (Or.inr (mem_pair _ _)))), rfl, rfl⟩

theorem logs_put : Logs 0 [keyWriteStart, keyWriteFinish] :=
  ⟨bracketed_of_mem (Or.inl (Or.inr (mem_pair _ _))), rfl, rfl⟩

theorem count_readPoints (reads : Nat) {point : TimingEvent}
    (h : [keyReadStart, keyReadFinish].count point = 1)
    : (Game.readPoints reads).count point = reads := by
  unfold Game.readPoints
  rw [List.count_flatten, List.map_replicate, h, List.sum_replicate_nat, Nat.mul_one]

theorem logs_get (reads : Nat)
    : Logs reads (remoteRequested :: Game.readPoints reads ++ [remoteReturned]) := by
  constructor
  . apply bracketed_of_mem
    refine Or.inr ⟨remoteRequested :: Game.readPoints reads, ?_, [remoteReturned], rfl, rfl⟩
    exact ⟨[remoteRequested], rfl, Game.readPoints reads, readPoints_mem reads, rfl⟩
  . simp [count_readPoints]
  . simp [count_readPoints]

end TimingEvent

namespace Game

open TimingEvent

variable {β : Type} {coder : Coder β} {g : Game β} {port : Port} {frame : Int32}

theorem logs_timed_ready (g : Game β) (answer : Except RpcFailure Inbound) (hungUp : Bool)
    : Logs 0 (g.ready answer hungUp).timed := by
  cases answer with
  | error failure => exact logs_nil
  | ok inbound => cases hungUp <;> exact logs_ready

theorem logs_timed_awaitStart? {o : Outcome β ClientError Unit} (h : g.awaitStart? = some o)
    : Logs 0 o.timed := by
  unfold awaitStart? at h
  split at h
  . rw [Option.some.injEq] at h
    rw [← h]
    exact logs_nil
  . dsimp at h
    split at h
    . simp at h
    . rw [Option.some.injEq] at h
      rw [← h]
      exact logs_start
    . rw [Option.some.injEq] at h
      rw [← h]
      exact logs_start

theorem logs_timed_readyAndAwaitStart? {answer : Except RpcFailure Inbound} {hungUp : Bool}
    {o : Outcome β ClientError Unit} (h : g.readyAndAwaitStart? answer hungUp = some o)
    : Logs 0 o.timed := by
  have hready := logs_timed_ready g answer hungUp
  unfold readyAndAwaitStart? at h
  dsimp at h
  split at h
  . rw [Option.some.injEq] at h
    rw [← h]
    exact hready
  . rw [Option.map_eq_some_iff] at h
    rcases h with ⟨o', ho', rfl⟩
    exact hready.append (logs_timed_awaitStart? ho')

theorem logs_timed_put (coder : Coder β) (g : Game β) (updates : List (ButtonUpdate β))
    : Logs 0 (g.put coder updates).timed := by
  unfold put
  dsimp
  split
  . exact logs_nil
  . exact logs_nil
  . split
    . exact logs_put
    . exact logs_put

/-- The reads that a result stands for besides those that took an event: the last one failed. -/
def failedReads {α : Type} : Except GetError α → Nat
  | .error (.rpc _) => 1
  | _ => 0

theorem failedReads_ok {α : Type} (a : α) : failedReads (.ok a) = 0 := rfl

theorem failedReads_error {α : Type} (γ : Type) (cause : GetError)
    : failedReads (.error cause : Except GetError α)
        =
      failedReads (.error cause : Except GetError γ) := by
  cases cause <;> rfl

/-- The reads of a call for buttons: each of them took an event from the stream or failed. -/
def readsOf (g : Game β) (o : Outcome β GetError β) : Nat :=
  g.unread.length - o.game.unread.length + failedReads o.result

theorem failedReads_of_isRefusal {α : Type} {cause : GetError} (h : cause.isRefusal = true)
    : failedReads (.error cause : Except GetError α) = 0 := by
  cases cause with
  | rpc failure => simp [GetError.isRefusal] at h
  | _ => rfl

theorem reads_pump? {ending : Option StreamEnd} {reads : Nat} {events : List IncomingEvent}
    {queues : Queues β} {pumped : Pumped β}
    (h : pump? coder port frame ending reads events queues = some pumped)
    : pumped.reads + pumped.inbound.events.length
        =
      reads + events.length + failedReads pumped.result := by
  induction events generalizing reads queues with
  | nil =>
    unfold pump? at h
    rw [Option.map_eq_some_iff] at h
    rcases h with ⟨e, _, rfl⟩
    rfl
  | cons e rest ih =>
    rw [List.length_cons]
    unfold pump? at h
    dsimp at h
    split at h
    . rw [Option.some.injEq] at h
      rw [← h]
      exact Nat.add_right_comm reads 1 rest.length
    . split at h
      . rw [Option.some.injEq] at h
        rw [← h]
        exact Nat.add_right_comm reads 1 rest.length
      . split at h
        . next hrefused =>
          rw [Option.some.injEq] at h
          rw [← h]
          dsimp
          rw [failedReads_of_isRefusal (storeKeys_error hrefused).1]
          omega
        . split at h
          . rw [Option.some.injEq] at h
            rw [← h]
            exact Nat.add_right_comm reads 1 rest.length
          . rw [ih h]
            omega

theorem length_pump?_le {ending : Option StreamEnd} {reads : Nat} {events : List IncomingEvent}
    {queues : Queues β} {pumped : Pumped β}
    (h : pump? coder port frame ending reads events queues = some pumped)
    : pumped.inbound.events.length ≤ events.length := by
  rcases pump?_cases h with ⟨passed, queues', _, ⟨_, hnil, _⟩ | ⟨e, hsplit, _⟩⟩
  . simp [hnil]
  . rw [hsplit, List.length_append, List.length_cons]
    omega

variable [Inhabited β]

theorem failedReads_getQueued (g : Game β) (port : Port) (frame : Int32)
    : failedReads (g.getQueued port frame).1 = 0 := by
  unfold getQueued
  split
  . rfl
  . split <;> rfl

theorem unread_getQueued (g : Game β) (port : Port) (frame : Int32)
    : (g.getQueued port frame).2.unread = g.unread := by
  rcases getQueued_cases g port frame with ⟨_, heq⟩ | ⟨_, _, _, _, _, heq⟩ <;> rw [heq]; rfl

theorem timed_getFromStream? {o : Outcome β GetError β}
    (h : g.getFromStream? coder port frame = some o) : o.timed = readPoints (g.readsOf o) := by
  unfold getFromStream? at h
  split at h
  . rw [Option.some.injEq] at h
    rw [← h]
    simp [readsOf, failedReads]
  . next inbound hinbound =>
    rw [Option.map_eq_some_iff] at h
    rcases h with ⟨pumped, hpump, rfl⟩
    have hreads := reads_pump? hpump
    have hle := length_pump?_le hpump
    have hunread : g.unread = inbound.events := by simp [unread, hinbound]
    unfold readsOf
    rw [hunread]
    cases hresult : pumped.result with
    | error cause =>
      rw [hresult, failedReads_error β] at hreads
      simp only [unread]
      congr 1
      omega
    | ok _ =>
      rw [hresult, failedReads_ok] at hreads
      dsimp
      rw [unread_getQueued, failedReads_getQueued]
      simp only [unread]
      congr 1
      omega

theorem timed_getRemote? {o : Outcome β GetError β} (h : g.getRemote? coder port frame = some o)
    : o.timed = readPoints (g.readsOf o) := by
  unfold getRemote? at h
  dsimp at h
  split at h
  . exact timed_getFromStream? h
  . rw [Option.some.injEq] at h
    rw [← h]
    simp [readsOf, unread_getQueued, failedReads_getQueued, readPoints]

theorem logs_timed_get? {o : Outcome β GetError β} (h : g.get? coder port frame = some o)
    : Logs (g.readsOf o) o.timed := by
  unfold get? at h
  split at h
  . rw [Option.some.injEq] at h
    rw [← h]
    simp only [readsOf, unread_getQueued, failedReads_getQueued, Nat.sub_self]
    exact logs_nil
  . rw [Option.map_eq_some_iff] at h
    rcases h with ⟨o', ho', rfl⟩
    dsimp
    rw [timed_getRemote? ho']
    exact logs_get (g.readsOf o')

/-- What an action logs. A call that still waits logs nothing before it returns. -/
def timed (coder : Coder β) (g : Game β) : Action β → List TimingEvent
  | .ready answer hungUp => (g.ready answer hungUp).timed
  | .awaitStart => g.awaitStart?.elim [] (·.timed)
  | .readyAndAwaitStart answer hungUp => (g.readyAndAwaitStart? answer hungUp).elim [] (·.timed)
  | .put updates => (g.put coder updates).timed
  | .get port frame => (g.get? coder port frame).elim [] (·.timed)
  | _ => []

/-- How often an action that gets buttons reads the stream. -/
def reads (coder : Coder β) (g : Game β) : Action β → Nat
  | .get port frame => (g.get? coder port frame).elim 0 g.readsOf
  | _ => 0

theorem logs_timed (coder : Coder β) (g : Game β) (a : Action β)
    : Logs (g.reads coder a) (g.timed coder a) := by
  unfold reads timed
  cases a with
  | ready answer hungUp => exact logs_timed_ready g answer hungUp
  | awaitStart =>
    cases ho : g.awaitStart? with
    | none => exact logs_nil
    | some o => exact logs_timed_awaitStart? ho
  | readyAndAwaitStart answer hungUp =>
    dsimp
    cases ho : g.readyAndAwaitStart? answer hungUp with
    | none => exact logs_nil
    | some o => exact logs_timed_readyAndAwaitStart? ho
  | put updates => exact logs_timed_put coder g updates
  | get port frame =>
    dsimp
    cases ho : g.get? coder port frame with
    | none => exact logs_nil
    | some o => exact logs_timed_get? ho
  | _ => exact logs_nil

end Game

namespace TimingLog

/-- Records some points one after the other. The `n`-th entry of a log is made at the time `clock n`. -/
def recordAll (clock : Nat → UInt64) (log : TimingLog) (points : List TimingEvent) : TimingLog :=
  points.foldl (fun log point => log.record point (clock log.size)) log

theorem recordAll_append (clock : Nat → UInt64) (log : TimingLog) (points : List TimingEvent)
    : ∃ entries, (log.recordAll clock points).entries = log.entries ++ entries ∧
        entries.map (·.event) = points := by
  induction points generalizing log with
  | nil => exact ⟨[], (List.append_nil _).symm, rfl⟩
  | cons point rest ih =>
    rcases ih (log.record point (clock log.size)) with ⟨entries, hentries, hpoints⟩
    refine ⟨⟨point, clock log.size⟩ :: entries, ?_, by rw [List.map_cons, hpoints]⟩
    rw [recordAll, List.foldl_cons]
    exact hentries.trans (List.append_assoc _ _ _)

end TimingLog

/-- An emulator, the games that were made from it, and the log that all of them share. -/
structure Recording (β : Type) where
  emulator : Emulator
  games : List (Game β) := []
  log : TimingLog := {}

namespace Recording

variable {β : Type}

/-- A call of the emulator or of one of its games, or something that happens to a game's stream. -/
inductive Call (β : Type) where
  | plug (call : PlugCall)
  | newGame
  | play (i : Nat) (a : Game.Action β)

/-- Nobody is asked for ports, and nothing is logged, if their number is wrong. -/
def plugTimed (e : Emulator) (call : PlugCall) : List TimingEvent :=
  match e.plugRequest call.ports with
  | .error _ => []
  | .ok _ => Emulator.plugPoints

variable [Inhabited β]

def timed (coder : Coder β) (r : Recording β) : Call β → List TimingEvent
  | .plug call => plugTimed r.emulator call
  | .newGame => []
  | .play i a => r.games[i]?.elim [] (·.timed coder a)

/-- How often a call that gets buttons reads the stream of its game. -/
def reads (coder : Coder β) (r : Recording β) : Call β → Nat
  | .play i a => r.games[i]?.elim 0 (·.reads coder a)
  | _ => 0

def step (coder : Coder β) (clock : Nat → UInt64) (r : Recording β) (call : Call β) : Recording β :=
  let log := r.log.recordAll clock (r.timed coder call)
  match call with
  | .plug call => { r with emulator := (r.emulator.plug call).2, log }
  | .newGame => { r with games := r.games ++ r.emulator.newGame.toOption.toList, log }
  | .play i a => { r with games := r.games.modify i (·.act coder a), log }

def run (coder : Coder β) (clock : Nat → UInt64) (r : Recording β) (calls : List (Call β)) :
    Recording β :=
  calls.foldl (step coder clock) r

/-- How often the calls that get buttons read a stream during a run. -/
def readsDuring (coder : Coder β) (clock : Nat → UInt64) : Recording β → List (Call β) → Nat
  | _, [] => 0
  | r, call :: rest => r.reads coder call + readsDuring coder clock (r.step coder clock call) rest

section Run

variable {coder : Coder β} {clock : Nat → UInt64} {r : Recording β} {call : Call β}

theorem logs_timed (coder : Coder β) (r : Recording β) (call : Call β)
    : TimingEvent.Logs (r.reads coder call) (r.timed coder call) := by
  cases call with
  | plug call =>
    unfold timed plugTimed
    dsimp
    split
    . exact TimingEvent.logs_nil
    . exact TimingEvent.logs_plug
  | newGame => exact TimingEvent.logs_nil
  | play i a =>
    unfold timed reads
    dsimp
    cases r.games[i]? with
    | none => exact TimingEvent.logs_nil
    | some g => exact Game.logs_timed coder g a

theorem log_step (coder : Coder β) (clock : Nat → UInt64) (r : Recording β) (call : Call β)
    : (r.step coder clock call).log = r.log.recordAll clock (r.timed coder call) := by
  cases call <;> rfl

theorem events_step
    : (r.step coder clock call).log.events = r.log.events ++ r.timed coder call := by
  rw [log_step]
  rcases TimingLog.recordAll_append clock r.log (r.timed coder call) with ⟨entries, hentries, hpoints⟩
  unfold TimingLog.events
  rw [hentries, List.map_append, hpoints]

theorem entries_step : r.log.entries <+: (r.step coder clock call).log.entries := by
  rw [log_step]
  rcases TimingLog.recordAll_append clock r.log (r.timed coder call) with ⟨entries, hentries, _⟩
  exact ⟨entries, hentries.symm⟩

theorem entries_run (calls : List (Call β))
    : r.log.entries <+: (r.run coder clock calls).log.entries := by
  induction calls generalizing r with
  | nil => exact List.prefix_rfl
  | cons call rest ih => exact entries_step.trans ih

theorem logs_run {reads : Nat} (h : TimingEvent.Logs reads r.log.events) (calls : List (Call β))
    : TimingEvent.Logs (reads + r.readsDuring coder clock calls)
        (r.run coder clock calls).log.events := by
  induction calls generalizing r reads with
  | nil => exact h
  | cons call rest ih =>
    unfold readsDuring
    rw [← Nat.add_assoc]
    apply ih
    rw [events_step]
    exact h.append (logs_timed coder r call)

end Run

/--
The log of an emulator and of the games made from it is well bracketed after any calls, whatever comes
of them, it holds a pair of points for each read of a call for buttons, and entries are only appended.
-/
theorem log_bracketed (coder : Coder β) (clock : Nat → UInt64) (e : Emulator) (calls : List (Call β))
    : let r := ({ emulator := e } : Recording β)
      let log := (r.run coder clock calls).log
      log.events ∈ TimingEvent.operationPoints.star.matches' ∧
        log.events.count .keyReadStart = r.readsDuring coder clock calls ∧
        log.events.count .keyReadFinish = r.readsDuring coder clock calls ∧
        ∀ later, log.entries <+: (r.run coder clock (calls ++ later)).log.entries := by
  intro r log
  have hlogs : TimingEvent.Logs (0 + r.readsDuring coder clock calls) log.events :=
    logs_run TimingEvent.logs_nil calls
  rw [Nat.zero_add] at hlogs
  refine ⟨hlogs.bracketed, hlogs.starts, hlogs.finishes, ?_⟩
  intro later
  unfold run
  rw [List.foldl_append]
  exact entries_run later

/-- The stream of the game ends while it waits for buttons of port 2. -/
example
    : let calls : List (Call UInt32) :=
        [.plug ⟨[.one], .ok { consoleId := 1, clientId := 1, ports := [1] }⟩,
          .newGame,
          .play 0 (.readyAndAwaitStart (.ok Game.opening)),
          .play 0 (.deliver [{ keys := [{ consoleId := 1, port := 2, frame := 1 }] }]),
          .play 0 (.finish .closed),
          .play 0 (.get .two 0)]
      (({ emulator := { consoleId := ⟨1⟩ } } : Recording UInt32).run .word (fun _ => 0) calls).log.events
        =
      [.plugRequest, .plugResponse, .readyWriteStart, .readyWriteFinish, .startReadStart,
        .startReadFinish, .remoteRequested, .keyReadStart, .keyReadFinish, .keyReadStart,
        .keyReadFinish, .remoteReturned] := by
  decide +kernel

end Recording
end PadRelay
