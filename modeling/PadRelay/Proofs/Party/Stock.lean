import PadRelay.Proofs.Party.Agreement

/-!
This module contains the theory of queues that are filled and read in order. How many frames were put
and how many were read tells all about such a queue, so it neither refuses the next frame nor gives a
wrong one back.
-/

namespace PadRelay

variable {β : Type}

/--
A queue that was given the buttons of frames `0` to `stored - 1`, delayed by `delay`, and from which
`reads` frames were read. No frame was read before it was there.
-/
structure FrameQueue.Holds (q : FrameQueue β) (delay : Int) (stored reads : Nat)
    (buttons : Nat → β) : Prop where
  initial : q.initial.toInt = delay
  latest : q.latest.toInt + 1 = reads
  fits : reads ≤ delay + stored
  frames : ∀ y v, q.frames.get? y = some v ↔
    ∃ n, n < stored ∧ y.toInt = n + delay ∧ reads ≤ y.toInt ∧ v = buttons n

namespace FrameQueue

variable {q : FrameQueue β} {delay : Int} {stored reads : Nat} {buttons : Nat → β} {frame : Int32}

theorem holds_new {q : FrameQueue β} (hinitial : q.initial.toInt = delay) (hdelay : 0 ≤ delay)
    (hlatest : q.latest = -1) (hframes : q.frames = ∅) (buttons : Nat → β)
    : q.Holds delay 0 0 buttons where
  initial := hinitial
  latest := by
    rw [hlatest]
    decide
  fits := by omega
  frames y v := by simp [hframes]

theorem Holds.put (h : q.Holds delay stored reads buttons) (hdelay : 0 ≤ delay) (hframe : 0 ≤ frame)
    (hnext : frame.toInt + q.delay.toInt = stored + delay) (hmax : stored + delay < 0x80000000)
    : ∃ q', q.put frame (buttons stored) = .ok q' ∧ q'.delay = q.delay ∧
        q'.Holds delay (stored + 1) reads buttons := by
  have hx : (Int32.ofInt (stored + delay)).toInt = stored + delay :=
    Int32.toInt_ofInt_of_le (by omega) (by omega)
  generalize Int32.ofInt (stored + delay) = x at hx
  -- All frames in the queue are earlier ones, so the next one is free.
  have hfree : q.frames.get? x = none := by
    cases hget : q.frames.get? x with
    | none => rfl
    | some v =>
      rcases (h.frames x v).1 hget with ⟨n, hn, hy, _⟩
      omega
  refine ⟨{ q with frames := q.frames.insert x (buttons stored) }, ?_, rfl, ?_⟩
  . rw [put_eq_ok_iff]
    refine ⟨x, hframe, by omega, ?_, ?_, hfree, rfl⟩
    . rw [Int32.le_iff_toInt_le, h.initial]
      omega
    . rw [Int32.lt_iff_toInt_lt]
      have := h.latest
      have := h.fits
      omega
  . refine ⟨h.initial, h.latest, by have := h.fits; omega, ?_⟩
    intro y v
    dsimp
    rw [SortedMap.get?_insert]
    split
    . next heq =>
      rw [heq]
      constructor
      . intro hv
        rw [Option.some.injEq] at hv
        have := h.fits
        exact ⟨stored, by omega, hx, by omega, hv.symm⟩
      . rintro ⟨n, _, hy, _, rfl⟩
        have : n = stored := by omega
        rw [this]
    . next hne =>
      rw [h.frames]
      constructor
      . rintro ⟨n, hn, hy⟩
        exact ⟨n, by omega, hy⟩
      . rintro ⟨n, hn, hy, hv⟩
        refine ⟨n, ?_, hy, hv⟩
        have : n ≠ stored := by
          intro heq
          apply hne
          rw [← Int32.toInt_inj]
          omega
        omega

/-- The buttons that belong to a frame: those of an earlier frame, or the default ones at first. -/
def readAt [Inhabited β] (delay : Int) (buttons : Nat → β) (frame : Int) : β :=
  if frame < delay then default else buttons (frame - delay).toNat

variable [Inhabited β]

theorem Holds.get (h : q.Holds delay stored reads buttons) (hframe : frame.toInt = reads)
    (hthere : reads < delay + stored)
    : ∃ q', q.get frame = .ok (readAt delay buttons reads, q') ∧ q'.delay = q.delay ∧
        q'.Holds delay stored (reads + 1) buttons := by
  have hlt := Int32.toInt_lt frame
  have hlatest := h.latest
  -- Frames are counted from zero while the queue starts at minus one.
  have hexpected : frame = q.latest + 1 := by
    rw [← Int32.toInt_inj, toInt_add_one] <;> omega
  unfold readAt
  split
  . next hinitial =>
    refine ⟨{ q with latest := frame }, ?_, rfl, h.initial, ?_, by omega, ?_⟩
    . rw [get_eq_ok_iff]
      refine ⟨hexpected, Or.inl ⟨?_, rfl, rfl⟩⟩
      rw [Int32.lt_iff_toInt_lt, h.initial]
      omega
    . dsimp
      omega
    . intro y v
      dsimp
      rw [h.frames]
      constructor
      . rintro ⟨n, hn, hy, hle, hv⟩
        exact ⟨n, hn, hy, by omega, hv⟩
      . rintro ⟨n, hn, hy, hle, hv⟩
        exact ⟨n, hn, hy, by omega, hv⟩
  . next hinitial =>
    refine ⟨{ q with latest := frame, frames := q.frames.erase frame }, ?_, rfl, h.initial, ?_,
      by omega, ?_⟩
    . rw [get_eq_ok_iff]
      refine ⟨hexpected, Or.inr ⟨?_, ?_, rfl⟩⟩
      . rw [Int32.le_iff_toInt_le, h.initial]
        omega
      . rw [h.frames]
        exact ⟨(reads - delay).toNat, by omega, by omega, by omega, rfl⟩
    . dsimp
      omega
    . intro y v
      dsimp
      rw [SortedMap.get?_erase]
      split
      . next heq =>
        constructor
        . simp
        . rintro ⟨n, hn, hy, hle, hv⟩
          rw [heq] at hle
          omega
      . next hne =>
        have hother : y.toInt ≠ reads := by
          intro heq
          apply hne
          rw [← Int32.toInt_inj]
          omega
        rw [h.frames]
        constructor
        . rintro ⟨n, hn, hy, hle, hv⟩
          exact ⟨n, hn, hy, by omega, hv⟩
        . rintro ⟨n, hn, hy, hle, hv⟩
          exact ⟨n, hn, hy, by omega, hv⟩

theorem Holds.get_timeout (h : q.Holds delay stored reads buttons) (hframe : frame.toInt = reads)
    (hlate : delay + stored ≤ reads) : q.get frame = .error (.timeout frame) := by
  have hlt := Int32.toInt_lt frame
  have hlatest := h.latest
  have hexpected : frame = q.latest + 1 := by
    rw [← Int32.toInt_inj, toInt_add_one] <;> omega
  have hnone : q.frames.get? frame = none := by
    cases hget : q.frames.get? frame with
    | none => rfl
    | some v =>
      rcases (h.frames frame v).1 hget with ⟨n, hn, hy, _⟩
      omega
  unfold FrameQueue.get
  dsimp
  rw [if_neg (by simp [hexpected]), if_neg, hnone]
  rw [Int32.lt_iff_toInt_lt, h.initial]
  omega

end FrameQueue

/-- Nobody shares a port with anybody else, everybody has one, and no delay is negative. -/
structure Apart (seats : List (Player β)) : Prop where
  owner : ∀ (o o' : Nat) (y y' : Player β) (port : Port), seats[o]? = some y →
    seats[o']? = some y' → y.game.localPorts.contains port = true →
      y'.game.localPorts.contains port = true → o = o'
  delay : ∀ (o : Nat) (y : Player β), seats[o]? = some y → 0 ≤ y.emulator.delay.toInt
  port : ∀ (o : Nat) (y : Player β), seats[o]? = some y →
    ∃ port, y.game.localPorts.contains port = true

/--
The queues of player `h` were given the buttons of `stored o port` frames for each port of each player
`o`, and `reads port` frames were read.
-/
def Stocked (seats : List (Player β)) (input : Nat → Nat → Port → β) (h : Nat)
    (stored : Nat → Port → Nat) (reads : Port → Nat) (queues : Queues β) : Prop :=
  ∀ (o : Nat) (y : Player β) (port : Port), seats[o]? = some y →
    y.game.localPorts.contains port = true →
      ∃ q, queues.get? port = some q ∧ q.delay = (if o = h then y.emulator.delay else 0) ∧
        q.Holds y.emulator.delay.toInt (stored o port) (reads port) (fun n => input o n port)

def stockUp (stored : Nat → Port → Nat) (o : Nat) (ports : List Port) : Nat → Port → Nat :=
  fun o' port => if o' = o ∧ port ∈ ports then stored o' port + 1 else stored o' port

section StockUp

variable {stored : Nat → Port → Nat} {o : Nat} {port : Port} {ports : List Port}

theorem stockUp_of_mem (h : port ∈ ports) : stockUp stored o ports o port = stored o port + 1 := by
  simp [stockUp, h]

theorem stockUp_of_not_mem {o' : Nat} (h : port ∉ ports)
    : stockUp stored o ports o' port = stored o' port := by
  simp [stockUp, h]

theorem stockUp_of_ne {o' : Nat} (h : o' ≠ o) : stockUp stored o ports o' port = stored o' port := by
  simp [stockUp, h]

theorem stockUp_cons (hnew : port ∉ ports)
    : stockUp (stockUp stored o [port]) o ports = stockUp stored o (port :: ports) := by
  funext o' port'
  unfold stockUp
  by_cases ho : o' = o
  . by_cases hport : port' = port
    . rw [hport]
      simp [ho, hnew]
    . simp [ho, hport]
  . simp [ho]

end StockUp

theorem keyOf_ok {coder : Coder β} (hcoder : coder.Lawful) {delay : Int32}
    (hdelay : 0 ≤ delay.toInt) {u : ButtonUpdate β} (hframe : 0 ≤ u.frame.toInt)
    (hmax : u.frame.toInt + delay.toInt < 0x80000000) (consoleId : ConsoleId)
    : ∃ key, Game.keyOf coder consoleId delay u = .ok key := by
  have hx : (Int32.ofInt (u.frame.toInt + delay.toInt)).toInt = u.frame.toInt + delay.toInt :=
    Int32.toInt_ofInt_of_le (by omega) (by omega)
  have hlt : ¬ delay < 0 := by
    rw [Int32.lt_iff_toInt_lt, Int32.toInt_zero]
    omega
  unfold Game.keyOf
  rw [if_neg hlt, addFrames?_eq_some_iff.2 hx]
  have hencode := hcoder.encode u.buttons
    { consoleId := consoleId.value
      frame := Int32.ofInt (u.frame.toInt + delay.toInt)
      port := u.port.number }
  rcases hencode with ⟨key, hkey, _⟩
  dsimp
  rw [hkey]
  exact ⟨key, rfl⟩

/-- What a message has to say about the input of player `y` for its frame `n`. -/
structure About (coder : Coder β) (input : Nat → Port → β) (y : Player β) (n : Nat)
    (key : KeyState) : Prop where
  port : y.game.localPorts.contains (Port.ofNumber key.port) = true
  consoleId : key.consoleId = y.game.consoleId.value
  frame : key.frame.toInt = n + y.emulator.delay.toInt
  buttons : coder.decode key = .ok (input n (Port.ofNumber key.port))

namespace Stocked

variable {seats : List (Player β)} {input : Nat → Nat → Port → β} {h : Nat}
  {stored stored' : Nat → Port → Nat} {reads : Port → Nat} {queues : Queues β}

theorem congr (hs : Stocked seats input h stored reads queues)
    (heq : ∀ (o : Nat) (y : Player β) (port : Port), seats[o]? = some y →
      y.game.localPorts.contains port = true → stored' o port = stored o port)
    : Stocked seats input h stored' reads queues := by
  intro o y port hy hport
  rw [heq o y port hy hport]
  exact hs o y port hy hport

theorem put (hapart : Apart seats) (hs : Stocked seats input h stored reads queues) {o : Nat}
    {y : Player β} (hy : seats[o]? = some y) {port : Port}
    (hport : y.game.localPorts.contains port = true) {frame : Int32} (hframe : 0 ≤ frame)
    (hnext : frame.toInt + (if o = h then y.emulator.delay else 0).toInt
      = stored o port + y.emulator.delay.toInt)
    (hmax : stored o port + y.emulator.delay.toInt < 0x80000000)
    : ∃ q q', queues.get? port = some q ∧
        q.delay = (if o = h then y.emulator.delay else 0) ∧
        q.put frame (input o (stored o port) port) = .ok q' ∧
        Stocked seats input h (stockUp stored o [port]) reads (queues.insert port q') := by
  rcases hs o y port hy hport with ⟨q, hq, hdelay, hholds⟩
  rcases hholds.put (hapart.delay o y hy) hframe (hdelay ▸ hnext) hmax with
    ⟨q', hput, hdelay', hholds'⟩
  refine ⟨q, q', hq, hdelay, hput, ?_⟩
  intro o' y' port' hy' hport'
  by_cases heq : port' = port
  . subst heq
    have ho := hapart.owner o' o y' y port' hy' hy hport' hport
    subst ho
    rw [hy, Option.some.injEq] at hy'
    subst hy'
    refine ⟨q', SortedMap.get?_insert_self _ _ _, hdelay'.trans hdelay, ?_⟩
    rw [stockUp_of_mem (by simp)]
    exact hholds'
  . rw [SortedMap.get?_insert_of_ne _ heq, stockUp_of_not_mem (by simp [heq])]
    exact hs o' y' port' hy' hport'

theorem storeUpdates {coder : Coder β} (hcoder : coder.Lawful) (hapart : Apart seats)
    {y : Player β} (hy : seats[h]? = some y) (hs : Stocked seats input h stored reads queues)
    {updates : List (ButtonUpdate β)} {n : Nat} (hnodup : (updates.map (·.port)).Nodup)
    (hlocal : ∀ u ∈ updates, y.game.localPorts.contains u.port = true)
    (hupdates : ∀ u ∈ updates, u.frame.toInt = n ∧ u.buttons = input h n u.port)
    (hstored : ∀ u ∈ updates, stored h u.port = n) (hmax : n + y.emulator.delay.toInt < 0x80000000)
    : ∃ keys queues', Game.storeUpdates coder y.game.consoleId y.game.localPorts updates queues
          = (.ok keys, queues') ∧
        Stocked seats input h (stockUp stored h (updates.map (·.port))) reads queues' ∧
        (keys.map fun key => Port.ofNumber key.port) = updates.map (·.port) ∧
        ∀ key ∈ keys, About coder (input h) y n key := by
  induction updates generalizing stored queues with
  | nil =>
    refine ⟨[], queues, rfl, ?_, rfl, by simp⟩
    apply hs.congr
    intro o z port _ _
    exact stockUp_of_not_mem (by simp)
  | cons u rest ih =>
    rw [List.map_cons, List.nodup_cons] at hnodup
    have hport := hlocal u List.mem_cons_self
    rcases hupdates u List.mem_cons_self with ⟨hframe, hbuttons⟩
    have hn := hstored u List.mem_cons_self
    have hnonneg : 0 ≤ u.frame := by
      rw [Int32.le_iff_toInt_le, Int32.toInt_zero, hframe]
      omega
    rcases hs.put hapart hy hport hnonneg (by rw [if_pos rfl, hn, hframe]) (by omega) with
      ⟨q, q', hq, hdelay, hput, hs'⟩
    rw [if_pos rfl] at hdelay
    rw [hn, ← hbuttons] at hput
    rcases keyOf_ok (u := u) hcoder (hapart.delay h y hy) (by omega) (by omega)
      y.game.consoleId with ⟨key, hkey⟩
    -- The ports differ, so the first update does not move the count of any other port on.
    have hstored' : ∀ u' ∈ rest, stockUp stored h [u.port] h u'.port = n := by
      intro u' hu'
      rw [stockUp_of_not_mem, hstored u' (List.mem_cons_of_mem _ hu')]
      intro hmem
      rw [List.mem_singleton] at hmem
      apply hnodup.1
      rw [← hmem]
      exact List.mem_map_of_mem hu'
    rcases ih hs' hnodup.2 (fun u' hu' => hlocal u' (List.mem_cons_of_mem _ hu'))
      (fun u' hu' => hupdates u' (List.mem_cons_of_mem _ hu')) hstored' with
      ⟨keys, queues', hrest, hs'', hports, hkeys⟩
    refine ⟨key :: keys, queues', ?_, ?_, ?_, ?_⟩
    . unfold Game.storeUpdates
      rw [hq]
      dsimp
      rw [hput]
      dsimp
      rw [hport, if_neg (by simp), hdelay, hkey]
      dsimp
      rw [hrest]
      rfl
    . rw [List.map_cons, ← stockUp_cons hnodup.1]
      exact hs''
    . rw [List.map_cons, List.map_cons, hports, (Game.keyOf_eq_ok hcoder hkey).2.1]
    . intro key' hmem
      cases List.mem_cons.1 hmem with
      | inl heq =>
        rw [heq]
        rcases Game.keyOf_eq_ok hcoder hkey with ⟨hconsole, hnumber, hdelayed, hdecode⟩
        refine ⟨?_, hconsole, ?_, ?_⟩
        . rw [hnumber]
          exact hport
        . rw [hdelayed, hframe]
        . rw [hdecode, hnumber, hbuttons]
      | inr hmem => exact hkeys key' hmem

theorem storeKeys {coder : Coder β} (hapart : Apart seats) {o : Nat} {y : Player β}
    (hy : seats[o]? = some y) (hne : o ≠ h) (hs : Stocked seats input h stored reads queues)
    {keys : List KeyState} {n : Nat} (hnodup : (keys.map fun key => Port.ofNumber key.port).Nodup)
    (hkeys : ∀ key ∈ keys, About coder (input o) y n key)
    (hstored : ∀ key ∈ keys, stored o (Port.ofNumber key.port) = n)
    (hmax : n + y.emulator.delay.toInt < 0x80000000)
    : ∃ queues', Game.storeKeys coder keys queues = (.ok (), queues') ∧
        Stocked seats input h (stockUp stored o (keys.map fun key => Port.ofNumber key.port)) reads
          queues' := by
  induction keys generalizing stored queues with
  | nil =>
    refine ⟨queues, rfl, ?_⟩
    apply hs.congr
    intro o z port _ _
    exact stockUp_of_not_mem (by simp)
  | cons key rest ih =>
    rw [List.map_cons, List.nodup_cons] at hnodup
    rcases hkeys key List.mem_cons_self with ⟨hport, _, hframe, hdecode⟩
    have hn := hstored key List.mem_cons_self
    have hdelay := hapart.delay o y hy
    have hnonneg : 0 ≤ key.frame := by
      rw [Int32.le_iff_toInt_le, Int32.toInt_zero]
      omega
    rcases hs.put hapart hy hport hnonneg (by rw [if_neg hne, Int32.toInt_zero]; omega) (by omega) with
      ⟨q, q', hq, _, hput, hs'⟩
    rw [hn] at hput
    have hstored' : ∀ key' ∈ rest,
        stockUp stored o [Port.ofNumber key.port] o (Port.ofNumber key'.port) = n := by
      intro key' hkey'
      rw [stockUp_of_not_mem, hstored key' (List.mem_cons_of_mem _ hkey')]
      intro hmem
      rw [List.mem_singleton] at hmem
      apply hnodup.1
      rw [← hmem]
      exact List.mem_map_of_mem (f := fun key => Port.ofNumber key.port) hkey'
    rcases ih hs' hnodup.2 (fun key' hkey' => hkeys key' (List.mem_cons_of_mem _ hkey')) hstored'
      with ⟨queues', hrest, hs''⟩
    refine ⟨queues', ?_, ?_⟩
    . unfold Game.storeKeys
      dsimp
      rw [hq]
      dsimp
      rw [hdecode]
      dsimp
      rw [hput]
      exact hrest
    . rw [List.map_cons, ← stockUp_cons hnodup.1]
      exact hs''

end Stocked

end PadRelay
