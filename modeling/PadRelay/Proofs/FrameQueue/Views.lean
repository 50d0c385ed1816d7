import PadRelay.Proofs.FrameQueue.History
import PadRelay.Proofs.Party.Stock

/-!
This module contains the comparison of the two queues that one port has: the queue of its owner, which
delays every frame itself, and the queue of everybody else, which is given frames that are delayed
already. They refuse buttons for different reasons but never differ in what they take, what they give and
what they have.
-/

namespace PadRelay
namespace FrameQueue

variable {β : Type}

/--
What a reader does that had to wait for a frame, once it was woken up or has waited long enough.
-/
def resume (q : FrameQueue β) (frame : Int32) : Except QueueError (β × FrameQueue β) :=
  match q.frames.get? frame with
  | none => .error (.timeout frame)
  | some buttons => .ok (buttons, { q with latest := frame, frames := q.frames.erase frame })

/-- A read is the end of a wait unless the frame is not the next one or has the default buttons. -/
theorem get_eq_resume [Inhabited β] (q : FrameQueue β) (frame : Int32)
    : q.get frame
        =
      if frame ≠ q.latest + 1 then .error (.unexpectedFrame frame (q.latest + 1))
      else if frame < q.initial then .ok (default, { q with latest := frame })
      else q.resume frame := rfl

/--
What may happen to a queue that several parties use: a request, or the end of the wait of a reader whose
own request was answered with a timeout. Anything may happen between the two.
-/
inductive Event (β : Type) where
  | request (r : Request β)
  | resume (frame : Int32)

inductive Answer (β : Type) where
  | put (accepted : Bool)
  | get (result : Except QueueError β)

section Observed

variable [Inhabited β]

def next (q : FrameQueue β) : Event β → FrameQueue β
  | .request r => q.after r
  | .resume frame =>
    match q.resume frame with
    | .error _ => q
    | .ok (_, q') => q'

def answer (q : FrameQueue β) : Event β → Answer β
  | .request (.put frame buttons) => .put (q.put frame buttons).isOk
  | .request (.get frame) => .get ((q.get frame).map (·.1))
  | .resume frame => .get ((q.resume frame).map (·.1))

/-- What the parties are answered, each with the frames that are in the queue afterwards. -/
def observed (q : FrameQueue β) : List (Event β) → List (Answer β × SortedMap Int32 β)
  | [] => []
  | e :: rest => (q.answer e, (q.next e).frames) :: (q.next e).observed rest

theorem observed_append (q : FrameQueue β) (events events' : List (Event β))
    : q.observed (events ++ events')
        =
      q.observed events ++ (events.foldl next q).observed events' := by
  induction events generalizing q with
  | nil => rfl
  | cons e rest ih =>
    rw [List.cons_append, List.foldl_cons]
    conv => lhs; unfold observed
    conv => rhs; lhs; unfold observed
    rw [ih, List.cons_append]

end Observed

section Relay

variable {coder : Coder β} {consoleId : ConsoleId} {port : Port} {delay : Int32}

/--
What becomes of an event of the owner at everybody else. Buttons arrive as in the message about them.
-/
def relay? (coder : Coder β) (consoleId : ConsoleId) (port : Port) (delay : Int32)
    : Event β → Option (Event β)
  | .request (.put frame buttons) =>
    match Game.keyOf coder consoleId delay { port, frame, buttons } with
    | .error _ => none
    | .ok key =>
      match coder.decode key with
      | .error _ => none
      | .ok buttons => some (.request (.put key.frame buttons))
  | e => some e

/-- The number that the buttons are sent under fits into 32 bits. -/
def Fits (delay : Int32) : Event β → Prop
  | .request (.put frame _) => (addFrames? frame delay).isSome
  | _ => True

instance (delay : Int32) : DecidablePred (Fits delay : Event β → Prop)
  | .request (.put frame _) => inferInstanceAs (Decidable ((addFrames? frame delay).isSome = true))
  | .request (.get _) => .isTrue trivial
  | .resume _ => .isTrue trivial

theorem relay?_put (hcoder : coder.Lawful) (hdelay : 0 ≤ delay) {frame x : Int32} {buttons : β}
    (hx : addFrames? frame delay = some x)
    : relay? coder consoleId port delay (.request (.put frame buttons))
        =
      some (.request (.put x buttons)) := by
  rcases hcoder.encode buttons { consoleId := consoleId.value, frame := x, port := port.number } with
    ⟨key, hencode, hdecode, _, hframe, _⟩
  have hkey : Game.keyOf coder consoleId delay { port, frame, buttons } = .ok key := by
    unfold Game.keyOf
    dsimp
    rw [if_neg (Int32.not_lt.2 hdelay), hx]
    dsimp
    rw [hencode]
  unfold relay?
  dsimp
  rw [hkey]
  dsimp
  rw [hdecode]
  dsimp
  rw [hframe]

end Relay

/--
`q` is the queue of the owner of a port, and `p` is one of everybody else. What is shifted at `q` is
shifted before it gets to `p`.
-/
structure Mirrors (q p : FrameQueue β) : Prop where
  shifted : p.delay = 0
  delay : 0 ≤ q.delay
  ownInitial : q.initial = q.delay
  initial : p.initial = q.delay
  latest : p.latest = q.latest
  frames : p.frames = q.frames

namespace Mirrors

variable {q p : FrameQueue β} {coder : Coder β}

/--
A frame is too early for the owner if it is negative, and for everybody else if it is within the delay.
-/
theorem put (h : q.Mirrors p) {frame x : Int32} (hx : x.toInt = frame.toInt + q.delay.toInt)
    (buttons : β)
    : (∃ q' p', q.put frame buttons = .ok q' ∧ p.put x buttons = .ok p' ∧ q'.delay = q.delay ∧
          q'.Mirrors p') ∨
        ∃ e e', q.put frame buttons = .error e ∧ p.put x buttons = .error e' := by
  have hdelay := h.delay
  have hzero : (0 : Int32).toInt = 0 := Int32.toInt_zero
  rw [Int32.le_iff_toInt_le, hzero] at hdelay
  have hown : ∀ q', q.put frame buttons = .ok q' →
      p.put x buttons = .ok { p with frames := q'.frames } ∧ q'.delay = q.delay ∧
        q'.Mirrors { p with frames := q'.frames } := by
    intro q' hput
    rcases put_eq_ok_iff.1 hput with ⟨y, hframe, hy, hinitial, hlatest, hfree, rfl⟩
    rw [Int32.le_iff_toInt_le, hzero] at hframe
    have heq : y = x := Int32.toInt_inj.1 (by omega)
    subst heq
    refine ⟨put_eq_ok_iff.2 ⟨y, ?_, ?_, ?_, ?_, ?_, ?_⟩, rfl, ?_⟩
    . rw [Int32.le_iff_toInt_le, hzero]
      omega
    . rw [h.shifted, hzero, Int.add_zero]
    . rw [h.initial, ← h.ownInitial]
      exact hinitial
    . rw [h.latest]
      exact hlatest
    . rw [h.frames]
      exact hfree
    . rw [h.frames]
    . exact ⟨h.shifted, h.delay, h.ownInitial, h.initial, h.latest, rfl⟩
  have hother : ∀ p', p.put x buttons = .ok p' → ∃ q', q.put frame buttons = .ok q' := by
    intro p' hput
    rcases put_eq_ok_iff.1 hput with ⟨y, _, hy, hinitial, hlatest, hfree, _⟩
    rw [h.shifted, hzero, Int.add_zero] at hy
    have heq : y = x := Int32.toInt_inj.1 hy
    subst heq
    have hle := hinitial
    rw [h.initial, Int32.le_iff_toInt_le] at hle
    refine ⟨_, put_eq_ok_iff.2 ⟨y, ?_, hx, ?_, ?_, ?_, rfl⟩⟩
    . rw [Int32.le_iff_toInt_le, hzero]
      omega
    . rw [h.ownInitial, ← h.initial]
      exact hinitial
    . rw [← h.latest]
      exact hlatest
    . rw [← h.frames]
      exact hfree
  cases hput : q.put frame buttons with
  | ok q' =>
    rcases hown q' hput with ⟨hput', hsame, hmirrors⟩
    exact Or.inl ⟨q', _, rfl, hput', hsame, hmirrors⟩
  | error e =>
    cases hput' : p.put x buttons with
    | ok p' =>
      rcases hother p' hput' with ⟨q', hok⟩
      rw [hput] at hok
      simp at hok
    | error e' => exact Or.inr ⟨e, e', rfl, rfl⟩

theorem resume (h : q.Mirrors p) (frame : Int32)
    : (∃ buttons q' p', q.resume frame = .ok (buttons, q') ∧ p.resume frame = .ok (buttons, p') ∧
          q'.delay = q.delay ∧ q'.Mirrors p') ∨
        ∃ e, q.resume frame = .error e ∧ p.resume frame = .error e := by
  unfold FrameQueue.resume
  rw [h.frames]
  cases q.frames.get? frame with
  | none => exact Or.inr ⟨_, rfl, rfl⟩
  | some buttons =>
    exact Or.inl ⟨buttons, _, _, rfl, rfl, rfl,
      ⟨h.shifted, h.delay, h.ownInitial, h.initial, rfl, rfl⟩⟩

variable [Inhabited β]

theorem get (h : q.Mirrors p) (frame : Int32)
    : (∃ buttons q' p', q.get frame = .ok (buttons, q') ∧ p.get frame = .ok (buttons, p') ∧
          q'.delay = q.delay ∧ q'.Mirrors p') ∨
        ∃ e, q.get frame = .error e ∧ p.get frame = .error e := by
  have hinitial : p.initial = q.initial := h.initial.trans h.ownInitial.symm
  rw [get_eq_resume, get_eq_resume, h.latest, hinitial]
  split
  . exact Or.inr ⟨_, rfl, rfl⟩
  . split
    . exact Or.inl ⟨default, _, _, rfl, rfl, rfl,
        ⟨h.shifted, h.delay, h.ownInitial, h.ownInitial, rfl, h.frames⟩⟩
    . exact h.resume frame

/-- Whatever happens to both queues, nobody can tell them apart and they stay alike. -/
theorem step (h : q.Mirrors p) (hcoder : coder.Lawful) (consoleId : ConsoleId) (port : Port)
    {e : Event β} (hfits : Fits q.delay e)
    : ∃ e', relay? coder consoleId port q.delay e = some e' ∧ q.answer e = p.answer e' ∧
        (q.next e).delay = q.delay ∧ (q.next e).Mirrors (p.next e') := by
  match e with
  | .request (.put frame buttons) =>
    rcases Option.isSome_iff_exists.1 hfits with ⟨x, hx⟩
    refine ⟨_, relay?_put hcoder h.delay hx, ?_⟩
    unfold answer next after
    dsimp
    rcases h.put (addFrames?_eq_some_iff.1 hx) buttons with
      ⟨q', p', hput, hput', hdelay, hmirrors⟩ | ⟨e, e', hput, hput'⟩
    . rw [hput, hput']
      exact ⟨rfl, hdelay, hmirrors⟩
    . rw [hput, hput']
      exact ⟨rfl, rfl, h⟩
  | .request (.get frame) =>
    refine ⟨_, rfl, ?_⟩
    unfold answer next after
    dsimp
    rcases h.get frame with ⟨buttons, q', p', hget, hget', hdelay, hmirrors⟩ | ⟨e, hget, hget'⟩
    . rw [hget, hget']
      exact ⟨rfl, hdelay, hmirrors⟩
    . rw [hget, hget']
      exact ⟨rfl, rfl, h⟩
  | .resume frame =>
    refine ⟨_, rfl, ?_⟩
    unfold answer next
    dsimp
    rcases h.resume frame with
      ⟨buttons, q', p', hget, hget', hdelay, hmirrors⟩ | ⟨e, hget, hget'⟩
    . rw [hget, hget']
      exact ⟨rfl, hdelay, hmirrors⟩
    . rw [hget, hget']
      exact ⟨rfl, rfl, h⟩

theorem observed (h : q.Mirrors p) (hcoder : coder.Lawful) (consoleId : ConsoleId) (port : Port)
    {events : List (Event β)} (hfits : ∀ e ∈ events, Fits q.delay e)
    : ∃ relayed, events.mapM (relay? coder consoleId port q.delay) = some relayed ∧
        q.observed events = p.observed relayed := by
  induction events generalizing q p with
  | nil => exact ⟨[], rfl, rfl⟩
  | cons e rest ih =>
    rcases h.step hcoder consoleId port (hfits e List.mem_cons_self) with
      ⟨e', hrelay, hanswer, hdelay, hnext⟩
    have hrest := fun e he => hfits e (List.mem_cons_of_mem _ he)
    rw [← hdelay] at hrest
    rcases ih hnext hrest with ⟨relayed, hrelayed, hobserved⟩
    rw [hdelay] at hrelayed
    refine ⟨e' :: relayed, ?_, ?_⟩
    . rw [List.mapM_cons, hrelay, hrelayed]
      rfl
    . unfold FrameQueue.observed
      rw [hanswer, hnext.frames, hobserved]

end Mirrors

theorem mirrors_new {delay : Int32} (hdelay : 0 ≤ delay)
    : (forLocal delay : FrameQueue β).Mirrors (forRemote delay) where
  shifted := rfl
  delay := hdelay
  ownInitial := rfl
  initial := rfl
  latest := rfl
  frames := rfl

/-- A player who puts the inputs of all frames in order. -/
def puts (frame : Nat) : List β → List (Event β)
  | [] => []
  | buttons :: rest => .request (.put (Int32.ofInt frame) buttons) :: puts (frame + 1) rest

/-- A player who reads frames in order. -/
def gets (frame : Nat) : (count : Nat) → List (Event β)
  | 0 => []
  | count + 1 => .request (.get (Int32.ofInt frame)) :: gets (frame + 1) count

theorem frame_of_mem_puts {frame : Nat} {inputs : List β} {x : Int32} {buttons : β}
    (hmax : frame + inputs.length ≤ 0x80000000)
    (hmem : Event.request (.put x buttons) ∈ puts frame inputs)
    : 0 ≤ x.toInt ∧ x.toInt < frame + inputs.length := by
  induction inputs generalizing frame with
  | nil => simp [puts] at hmem
  | cons b rest ih =>
    rw [List.length_cons] at hmax ⊢
    unfold puts at hmem
    cases List.mem_cons.1 hmem with
    | inl heq =>
      have hx : (Int32.ofInt frame).toInt = frame := Int32.toInt_ofInt_of_le (by omega) (by omega)
      simp only [Event.request.injEq, Request.put.injEq] at heq
      rw [heq.1, hx]
      omega
    | inr hmem =>
      have := ih (by omega) hmem
      omega

theorem put_not_mem_gets (frame count : Nat) (x : Int32) (buttons : β)
    : Event.request (.put x buttons) ∉ gets frame count := by
  induction count generalizing frame with
  | zero => simp [gets]
  | succ count ih =>
    unfold gets
    simpa using ih (frame + 1)

section Played

variable [Inhabited β] {q : FrameQueue β} {delay : Int} {stored reads : Nat} {buttons : Nat → β}

/-- All inputs are taken, and then they are what the queue holds. -/
theorem Holds.puts (h : q.Holds delay stored reads buttons) (hdelay : 0 ≤ delay)
    (hshift : q.delay.toInt = delay) (inputs : List β)
    (hinputs : ∀ n (hn : n < inputs.length), inputs[n] = buttons (stored + n))
    (hmax : stored + inputs.length + delay ≤ 0x80000000)
    : (q.observed (FrameQueue.puts stored inputs)).map (·.1)
          =
        List.replicate inputs.length (.put true) ∧
        ((FrameQueue.puts stored inputs).foldl next q).Holds delay (stored + inputs.length) reads
          buttons := by
  induction inputs generalizing q stored with
  | nil => exact ⟨rfl, h⟩
  | cons b rest ih =>
    rw [List.length_cons] at hmax
    have hframe : (Int32.ofInt stored).toInt = stored :=
      Int32.toInt_ofInt_of_le (by omega) (by omega)
    have hnonneg : 0 ≤ Int32.ofInt stored := by
      rw [Int32.le_iff_toInt_le, Int32.toInt_zero, hframe]
      omega
    have hfirst : b = buttons stored := hinputs 0 (by simp)
    rcases h.put hdelay hnonneg (by omega) (by omega) with ⟨q', hput, hsame, h'⟩
    rw [← hfirst] at hput
    have hnext : q.next (.request (.put (Int32.ofInt stored) b)) = q' := by
      simp [next, after, hput]
    have hrest : ∀ n (hn : n < rest.length), rest[n] = buttons (stored + 1 + n) := by
      intro n hn
      have := hinputs (n + 1) (by simpa using hn)
      rw [List.getElem_cons_succ] at this
      rw [this, Nat.add_assoc, Nat.add_comm 1 n]
    rcases ih h' (by rw [hsame, hshift]) hrest (by omega) with ⟨hanswers, hholds⟩
    unfold FrameQueue.puts observed
    rw [List.map_cons, List.foldl_cons, hnext, hanswers]
    refine ⟨?_, ?_⟩
    . simp [answer, hput, Except.isOk, Except.toBool, List.replicate_succ]
    . rw [List.length_cons, Nat.add_comm rest.length 1, ← Nat.add_assoc]
      exact hholds

theorem Holds.gets (h : q.Holds delay stored reads buttons) {count : Nat}
    (hcount : reads + count ≤ delay + stored) (hmax : reads + count ≤ 0x80000000)
    : (q.observed (FrameQueue.gets reads count)).map (·.1)
        =
      (List.range' reads count).map fun (n : Nat) => .get (.ok (readAt delay buttons n)) := by
  induction count generalizing q reads with
  | zero => rfl
  | succ count ih =>
    have hframe : (Int32.ofInt reads).toInt = reads :=
      Int32.toInt_ofInt_of_le (by omega) (by omega)
    rcases h.get hframe (by omega) with ⟨q', hget, _, h'⟩
    have hnext : q.next (.request (.get (Int32.ofInt reads))) = q' := by
      simp [next, after, hget]
    unfold FrameQueue.gets observed
    rw [List.map_cons, hnext, ih h' (by omega) (by omega), List.range'_succ, List.map_cons]
    simp [answer, hget, Except.map]

end Played

/-- What the frames of a port are, from the first one on, when its inputs are put in order. -/
theorem readAt_getD [Inhabited β] (delay : Nat) (inputs : List β) (n : Nat)
    : readAt delay (inputs.getD · default) n
        =
      (List.replicate delay default ++ inputs).getD n default := by
  unfold readAt
  simp only [List.getD_eq_getElem?_getD, List.getElem?_append, List.length_replicate]
  split
  . next hlt =>
    rw [if_pos (by omega), List.getElem?_replicate, if_pos (by omega)]
    rfl
  . next hle =>
    rw [if_neg (by omega)]
    congr 2
    omega

/--
What the owner of a port sees of it and what everybody else sees of it, where the others get all buttons
in messages of one coder.
-/
structure InStep [Inhabited β] (coder : Coder β) (consoleId : ConsoleId) (port : Port)
    (delay : Int32) : Prop where
  observed : ∀ events : List (Event β), (∀ e ∈ events, Fits delay e) →
    ∃ relayed, events.mapM (relay? coder consoleId port delay) = some relayed ∧
      (forLocal delay).observed events = (forRemote delay).observed relayed
  /-- The first frames have the default buttons, and those after them have the inputs in order. -/
  played : ∀ (inputs : List β) (count : Nat), inputs.length + delay.toInt ≤ 0x80000000 →
    count ≤ delay.toInt + inputs.length →
      ∃ relayed,
        (puts 0 inputs ++ gets 0 count).mapM (relay? coder consoleId port delay) = some relayed ∧
        ∀ view ∈ [(forLocal delay).observed (puts 0 inputs ++ gets 0 count),
            (forRemote delay).observed relayed],
          view.map (·.1)
            =
          List.replicate inputs.length (.put true) ++
            ((List.replicate delay.toInt.toNat default ++ inputs).take count).map
              fun buttons => .get (.ok buttons)

theorem fits_session {delay : Int32} {inputs : List β} (count : Nat) (hdelay : 0 ≤ delay.toInt)
    (hmax : inputs.length + delay.toInt ≤ 0x80000000)
    : ∀ e ∈ puts 0 inputs ++ gets 0 count, Fits delay e := by
  intro e he
  match e with
  | .request (.put frame buttons) =>
    have hframe := frame_of_mem_puts (by omega)
      ((List.mem_append.1 he).resolve_right (put_not_mem_gets _ _ _ _))
    have hx : (Int32.ofInt (frame.toInt + delay.toInt)).toInt = frame.toInt + delay.toInt :=
      Int32.toInt_ofInt_of_le (by omega) (by omega)
    exact Option.isSome_of_mem (addFrames?_eq_some_iff.2 hx)
  | .request (.get _) => trivial
  | .resume _ => trivial

/-- What the owner of a port is answered who puts some inputs and then reads some frames. -/
theorem observed_session [Inhabited β] {delay : Int32} (hdelay : 0 ≤ delay.toInt) {inputs : List β}
    {count : Nat} (hmax : inputs.length + delay.toInt ≤ 0x80000000)
    (hcount : count ≤ delay.toInt + inputs.length)
    : ((forLocal delay).observed (puts 0 inputs ++ gets 0 count)).map (·.1)
        =
      List.replicate inputs.length (.put true) ++
        ((List.replicate delay.toInt.toNat default ++ inputs).take count).map
          fun buttons => .get (.ok buttons) := by
  have hnew : (forLocal delay : FrameQueue β).Holds delay.toInt 0 0 (inputs.getD · default) :=
    holds_new rfl hdelay rfl rfl _
  rcases hnew.puts hdelay rfl inputs (by intro n hn; simp [hn]) (by omega) with ⟨hputs, hholds⟩
  rw [observed_append, List.map_append, hputs, hholds.gets (by omega) (by omega)]
  congr 1
  apply List.ext_getElem
  . simp only [List.length_map, List.length_range', List.length_take, List.length_append,
      List.length_replicate]
    omega
  . intro n hn hn'
    rw [List.length_map, List.length_range'] at hn
    simp only [List.getElem_map, List.getElem_range', List.getElem_take]
    have hlt : n < (List.replicate delay.toInt.toNat default ++ inputs).length := by
      rw [List.length_append, List.length_replicate]
      omega
    have hread := readAt_getD delay.toInt.toNat inputs n
    rw [Int.toNat_of_nonneg hdelay, List.getD_eq_getElem?_getD, List.getElem?_eq_getElem hlt] at hread
    simpa using hread

theorem inStep_of_lawful [Inhabited β] {coder : Coder β} (hcoder : coder.Lawful)
    (consoleId : ConsoleId) (port : Port) {delay : Int32} (hdelay : 0 ≤ delay)
    : InStep coder consoleId port delay := by
  have hmirrors := mirrors_new (β := β) hdelay
  refine ⟨fun events hfits => hmirrors.observed hcoder consoleId port hfits, ?_⟩
  intro inputs count hmax hcount
  rw [Int32.le_iff_toInt_le, Int32.toInt_zero] at hdelay
  rcases hmirrors.observed hcoder consoleId port (fits_session count hdelay hmax) with
    ⟨relayed, hrelayed, hobserved⟩
  have hown := observed_session hdelay hmax hcount
  refine ⟨relayed, hrelayed, ?_⟩
  intro view hview
  simp only [List.mem_cons, List.not_mem_nil, or_false] at hview
  rcases hview with rfl | rfl
  . exact hown
  . rw [← hobserved]
    exact hown

/--
A player sees of its own port what everybody else sees of it, with any delay that is not negative and
either coder.
-/
theorem queues_in_step {delay : Int32} (hdelay : 0 ≤ delay) (consoleId : ConsoleId) (port : Port)
    : InStep Coder.word consoleId port delay ∧ InStep Coder.pad consoleId port delay := by
  exact ⟨inStep_of_lawful Coder.lawful_word consoleId port hdelay,
    inStep_of_lawful Coder.lawful_pad consoleId port hdelay⟩

/--
A writer who starts before frame zero, repeats a frame and is late, and a reader who once has to wait and
then skips a frame.
-/
def disputed : List (Event UInt32) := [
  .request (.put (-1) 9), .request (.put 0 10), .request (.put 0 11), .request (.get 0),
  .request (.get 1), .request (.get 2), .request (.get 3), .request (.put 1 12), .resume 3,
  .request (.put 1 13), .request (.get 5)]

theorem queues_in_step_disputed
    : (0 : Int32) ≤ 2 ∧ ∃ relayed,
        disputed.mapM (relay? Coder.word ⟨1⟩ .one 2) = some relayed ∧
        (forLocal 2).observed disputed = (forRemote 2).observed relayed ∧
        ((forLocal 2).observed disputed).map (·.2.entries)
          =
        [[], [(2, 10)], [(2, 10)], [(2, 10)], [(2, 10)], [], [], [(3, 12)], [], [], []] := by
  have hfits : ∀ e ∈ disputed, Fits 2 e := by decide
  rcases (queues_in_step (by decide) ⟨1⟩ .one).1.observed disputed hfits with
    ⟨relayed, hrelayed, hobserved⟩
  exact ⟨by decide, relayed, hrelayed, hobserved, by decide +kernel⟩

end FrameQueue
end PadRelay
