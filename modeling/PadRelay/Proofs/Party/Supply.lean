import PadRelay.Proofs.Party.Stock

/-!
This module contains the theory of readers whose event streams tell them about the input of all others
frame by frame. Such a reader gets what it asks for, or it has to wait for an event.
-/

namespace PadRelay

variable {β : Type}

def bump (count : Nat → Nat) (o : Nat) : Nat → Nat :=
  fun o' => if o' = o then count o' + 1 else count o'

theorem bump_self (count : Nat → Nat) (o : Nat) : bump count o o = count o + 1 := by
  simp [bump]

theorem bump_of_ne {count : Nat → Nat} {o o' : Nat} (h : o' ≠ o) : bump count o o' = count o' := by
  simp [bump, h]

/-- The messages are the input of player `y` for its frame `n`, one for each of its ports. -/
structure Tells (coder : Coder β) (input : Nat → Port → β) (y : Player β) (n : Nat)
    (keys : List KeyState) : Prop where
  ports : (keys.map fun key => Port.ofNumber key.port).Perm y.game.localPorts.toList
  about : ∀ key ∈ keys, About coder input y n key

section Tells

variable {coder : Coder β} {input : Nat → Port → β} {y : Player β} {n : Nat} {keys : List KeyState}

theorem nodup_toList (ports : PortSet) : ports.toList.Nodup :=
  SortedMap.keys_nodup ports

theorem Tells.nodup (h : Tells coder input y n keys)
    : (keys.map fun key => Port.ofNumber key.port).Nodup :=
  h.ports.nodup_iff.2 (nodup_toList _)

theorem Tells.mem_iff (h : Tells coder input y n keys) {port : Port}
    : (∃ key ∈ keys, Port.ofNumber key.port = port) ↔ y.game.localPorts.contains port = true := by
  rw [← PortSet.mem_toList, ← h.ports.mem_iff, List.mem_map]

end Tells

/--
The events tell player `h` about the frames of all others, each player's one after the other: if the
first `seen o` frames of player `o` were told before, the first `told o` are after the events.
-/
inductive Follows (coder : Coder β) (seats : List (Player β)) (input : Nat → Nat → Port → β)
    (h : Nat) : (Nat → Nat) → List IncomingEvent → (Nat → Nat) → Prop
  | nil {seen told : Nat → Nat} :
    (∀ o, o ≠ h → seen o = told o) → Follows coder seats input h seen [] told
  | cons {seen told : Nat → Nat} {o : Nat} {y : Player β} {keys : List KeyState}
    {rest : List IncomingEvent} :
    o ≠ h → seats[o]? = some y → Tells coder (input o) y (seen o) keys →
    Follows coder seats input h (bump seen o) rest told →
    Follows coder seats input h seen ({ keys := keys } :: rest) told

namespace Follows

variable {coder : Coder β} {seats : List (Player β)} {input : Nat → Nat → Port → β} {h : Nat}
  {seen seen' mid told told' : Nat → Nat} {events events' : List IncomingEvent}

theorem congr_left (hf : Follows coder seats input h seen events told)
    (heq : ∀ o, o ≠ h → seen' o = seen o) : Follows coder seats input h seen' events told := by
  induction hf generalizing seen' with
  | nil hsame =>
    apply Follows.nil
    intro o ho
    rw [heq o ho, hsame o ho]
  | @cons seen told o y keys rest hne hy htells _ ih =>
    apply Follows.cons hne hy
    . rw [heq o hne]
      exact htells
    . apply ih
      intro o' ho'
      unfold bump
      rw [heq o' ho']

theorem congr_right (hf : Follows coder seats input h seen events told)
    (heq : ∀ o, o ≠ h → told' o = told o) : Follows coder seats input h seen events told' := by
  induction hf with
  | nil hsame =>
    apply Follows.nil
    intro o ho
    rw [heq o ho, hsame o ho]
  | cons hne hy htells _ ih => exact .cons hne hy htells (ih heq)

theorem append (hf : Follows coder seats input h seen events mid)
    (hf' : Follows coder seats input h mid events' told)
    : Follows coder seats input h seen (events ++ events') told := by
  induction hf with
  | nil hsame => exact hf'.congr_left hsame
  | cons hne hy htells _ ih => exact .cons hne hy htells (ih hf')

theorem split (hf : Follows coder seats input h seen (events ++ events') told)
    : ∃ mid, Follows coder seats input h seen events mid ∧
        Follows coder seats input h mid events' told := by
  induction events generalizing seen with
  | nil => exact ⟨seen, .nil fun _ _ => rfl, hf⟩
  | cons e rest ih =>
    cases hf with
    | cons hne hy htells hrest =>
      rcases ih hrest with ⟨mid, hleft, hright⟩
      exact ⟨mid, .cons hne hy htells hleft, hright⟩

theorem concat (hf : Follows coder seats input h seen events told) {o : Nat} {y : Player β}
    {keys : List KeyState} (hne : o ≠ h) (hy : seats[o]? = some y)
    (htells : Tells coder (input o) y (told o) keys)
    : Follows coder seats input h seen (events ++ [{ keys := keys }]) (bump told o) :=
  hf.append (.cons hne hy htells (.nil fun _ _ => rfl))

theorem le (hf : Follows coder seats input h seen events told) {o : Nat} (ho : o ≠ h)
    : seen o ≤ told o := by
  induction hf with
  | nil hsame => exact Nat.le_of_eq (hsame o ho)
  | @cons seen told o' _ _ _ _ _ _ _ ih =>
    unfold bump at ih
    split at ih
    . omega
    . exact ih

theorem invalid (hf : Follows coder seats input h seen events told) {e : IncomingEvent}
    (he : e ∈ events) : e.invalid = [] := by
  induction hf with
  | nil _ => simp at he
  | cons _ _ _ _ ih =>
    cases List.mem_cons.1 he with
    | inl heq => rw [heq]
    | inr he => exact ih he

end Follows

/-- How many frames of each player the queues of player `h` were given. -/
def supplied (h puts : Nat) (seen : Nat → Nat) (o : Nat) : Nat :=
  if o = h then puts else seen o

theorem supplied_of_ne {h puts : Nat} {seen : Nat → Nat} {o : Nat} (ho : o ≠ h)
    : supplied h puts seen o = seen o := by
  simp [supplied, ho]

theorem bump_supplied {h puts : Nat} {seen : Nat → Nat} {o : Nat} (ho : o ≠ h)
    : bump (supplied h puts seen) o = supplied h puts (bump seen o) := by
  funext o'
  unfold bump supplied
  by_cases heq : o' = o
  . simp [heq, ho]
  . simp [heq]

def readUp (reads : Port → Nat) (port : Port) : Port → Nat :=
  fun port' => if port' = port then reads port' + 1 else reads port'

namespace Stocked

variable {coder : Coder β} {seats : List (Player β)} {input : Nat → Nat → Port → β} {h : Nat}
  {count : Nat → Nat} {reads : Port → Nat} {queues : Queues β}

theorem of_stockUp {o : Nat} {y : Player β} (hy : seats[o]? = some y)
    {ports : List Port} (hports : ∀ port, port ∈ ports ↔ y.game.localPorts.contains port = true)
    (hs : Stocked seats input h (stockUp (fun o' _ => count o') o ports) reads queues)
    : Stocked seats input h (fun o' _ => bump count o o') reads queues := by
  apply hs.congr
  intro o' y' port hy' hport
  by_cases heq : o' = o
  . subst heq
    rw [hy, Option.some.injEq] at hy'
    subst hy'
    rw [bump_self, stockUp_of_mem ((hports port).2 hport)]
  . rw [bump_of_ne heq, stockUp_of_ne heq]

theorem storeEvent (hapart : Apart seats) {o : Nat} {y : Player β} (hy : seats[o]? = some y)
    (hne : o ≠ h) (hs : Stocked seats input h (fun o' _ => count o') reads queues)
    {keys : List KeyState} (htells : Tells coder (input o) y (count o) keys)
    (hmax : count o + y.emulator.delay.toInt < 0x80000000)
    : ∃ queues', Game.storeKeys coder keys queues = (.ok (), queues') ∧
        Stocked seats input h (fun o' _ => bump count o o') reads queues' := by
  rcases hs.storeKeys hapart hy hne htells.nodup htells.about (fun _ _ => rfl) hmax with
    ⟨queues', hstore, hs'⟩
  refine ⟨queues', hstore, hs'.of_stockUp hy ?_⟩
  intro port
  rw [htells.ports.mem_iff, PortSet.mem_toList]

variable [Inhabited β] {stored : Nat → Port → Nat}

theorem get (hapart : Apart seats) (hs : Stocked seats input h stored reads queues) {o : Nat}
    {y : Player β} (hy : seats[o]? = some y) {port : Port}
    (hport : y.game.localPorts.contains port = true) {frame : Int32}
    (hframe : frame.toInt = reads port)
    (hthere : reads port < y.emulator.delay.toInt + stored o port)
    : ∃ q q', queues.get? port = some q ∧
        q.get frame = .ok (FrameQueue.readAt y.emulator.delay.toInt (fun n => input o n port)
          (reads port), q') ∧
        Stocked seats input h stored (readUp reads port) (queues.insert port q') := by
  rcases hs o y port hy hport with ⟨q, hq, hdelay, hholds⟩
  rcases hholds.get hframe hthere with ⟨q', hget, hdelay', hholds'⟩
  refine ⟨q, q', hq, hget, ?_⟩
  intro o' y' port' hy' hport'
  unfold readUp
  by_cases heq : port' = port
  . subst heq
    have ho := hapart.owner o' o y' y port' hy' hy hport' hport
    subst ho
    rw [hy, Option.some.injEq] at hy'
    subst hy'
    refine ⟨q', SortedMap.get?_insert_self _ _ _, hdelay'.trans hdelay, ?_⟩
    rw [if_pos rfl]
    exact hholds'
  . rw [SortedMap.get?_insert_of_ne _ heq]
    simp only [heq, if_false]
    exact hs o' y' port' hy' hport'

theorem get_timeout (hs : Stocked seats input h stored reads queues) {o : Nat} {y : Player β}
    (hy : seats[o]? = some y) {port : Port} (hport : y.game.localPorts.contains port = true)
    {frame : Int32} (hframe : frame.toInt = reads port)
    (hlate : y.emulator.delay.toInt + stored o port ≤ reads port)
    : ∃ q, queues.get? port = some q ∧ q.get frame = .error (.timeout frame) := by
  rcases hs o y port hy hport with ⟨q, hq, _, hholds⟩
  exact ⟨q, hq, hholds.get_timeout hframe hlate⟩

end Stocked

section Pump

variable {coder : Coder β} {seats : List (Player β)} {input : Nat → Nat → Port → β} {h : Nat}
  {seen told : Nat → Nat} {reads : Port → Nat} {queues : Queues β} {events : List IncomingEvent}

theorem mentions_iff (hapart : Apart seats) {o o' : Nat} {y y' : Player β}
    (hy : seats[o]? = some y) (hy' : seats[o']? = some y') {port : Port}
    (hport : y.game.localPorts.contains port = true) {n : Nat} {keys : List KeyState}
    (htells : Tells coder (input o') y' n keys) (frame : Int32)
    : Game.mentions port frame keys = true ↔
        o' = o ∧ frame.toInt = n + y.emulator.delay.toInt := by
  unfold Game.mentions
  simp only [List.any_eq_true, Bool.and_eq_true, decide_eq_true_eq]
  constructor
  . -- Only the owner of a port sends keys for it.
    rintro ⟨key, hkey, rfl, rfl⟩
    have habout := htells.about key hkey
    have ho := hapart.owner o' o y' y _ hy' hy habout.port hport
    subst ho
    rw [hy, Option.some.injEq] at hy'
    subst hy'
    exact ⟨rfl, habout.frame⟩
  . rintro ⟨rfl, hframe⟩
    rw [hy, Option.some.injEq] at hy'
    subst hy'
    rcases htells.mem_iff.2 hport with ⟨key, hkey, hnumber⟩
    refine ⟨key, hkey, hnumber, ?_⟩
    rw [← Int32.toInt_inj, (htells.about key hkey).frame, hframe]

/-- What reading the event stream has led to once the frame that was asked for is there. -/
structure Fetched (coder : Coder β) (seats : List (Player β)) (input : Nat → Nat → Port → β)
    (h puts : Nat) (told : Nat → Nat) (reads : Port → Nat) (pumped : Game.Pumped β)
    (seen : Nat → Nat) : Prop where
  result : pumped.result = .ok ()
  ending : pumped.inbound.ending = none
  stopped : pumped.stopped = false
  follows : Follows coder seats input h seen pumped.inbound.events told
  stocked : Stocked seats input h (fun o _ => supplied h puts seen o) reads pumped.queues

/--
Reading the event stream for a frame that is not there yet ends with the event that tells about it,
unless that event has not arrived.
-/
theorem pump?_cases (hapart : Apart seats) {puts : Nat}
    (hf : Follows coder seats input h seen events told)
    (hs : Stocked seats input h (fun o _ => supplied h puts seen o) reads queues)
    (hmax : ∀ (o : Nat) (y : Player β), o ≠ h → seats[o]? = some y →
      told o + y.emulator.delay.toInt < 0x80000000)
    {o : Nat} {y : Player β} (hy : seats[o]? = some y) {port : Port}
    (hport : y.game.localPorts.contains port = true) {frame : Int32}
    (hframe : frame.toInt = reads port) (hlate : y.emulator.delay.toInt + seen o ≤ reads port)
    (k : Nat)
    : (Game.pump? coder port frame none k events queues = none ∧
        (o ≠ h → y.emulator.delay.toInt + told o ≤ reads port)) ∨
      ∃ pumped seen', Game.pump? coder port frame none k events queues = some pumped ∧
        Fetched coder seats input h puts told reads pumped seen' ∧
        reads port < y.emulator.delay.toInt + seen' o := by
  -- Induction on the events that were not read yet. Each one is stored; either it tells about the
  -- frame, or it is about another frame and reading goes on.
  induction hf generalizing queues k with
  | @nil seen told hsame =>
    left
    refine ⟨rfl, ?_⟩
    intro ho
    rw [← hsame o ho]
    exact hlate
  | @cons seen told o' y' keys rest hne hy' htells hrest ih =>
    have hle := hrest.le hne
    rw [bump_self] at hle
    have hbound := hmax o' y' hne hy'
    have hnext : Tells coder (input o') y' (supplied h puts seen o') keys := by
      rw [supplied_of_ne hne]
      exact htells
    rcases hs.storeEvent hapart hy' hne hnext (by rw [supplied_of_ne hne]; omega) with
      ⟨queues', hstore, hs'⟩
    simp only [bump_supplied hne] at hs'
    have hmentions := mentions_iff hapart hy hy' hport htells frame
    unfold Game.pump?
    dsimp
    rw [hstore]
    dsimp
    cases hfound : Game.mentions port frame keys with
    | true =>
      rcases hmentions.1 hfound with ⟨rfl, hn⟩
      right
      refine ⟨_, bump seen o', rfl, ⟨rfl, rfl, rfl, hrest, hs'⟩, ?_⟩
      rw [bump_self]
      omega
    | false =>
      have hlate' : y.emulator.delay.toInt + bump seen o' o ≤ reads port := by
        by_cases ho : o = o'
        . subst ho
          rw [bump_self]
          have hneq : frame.toInt ≠ seen o + y.emulator.delay.toInt := by
            intro heq
            rw [hmentions.2 ⟨rfl, heq⟩] at hfound
            simp at hfound
          omega
        . rw [bump_of_ne ho]
          exact hlate
      exact ih hs' hmax hlate' (k + 1)

end Pump

/-- A game whose event stream is open, has told about all others in order, and has filled its queues. -/
structure Supplied (coder : Coder β) (seats : List (Player β)) (input : Nat → Nat → Port → β)
    (h puts : Nat) (told : Nat → Nat) (reads : Port → Nat) (g : Game β) (seen : Nat → Nat) :
    Prop where
  inbound : ∃ events, g.inbound = some { events }
  writes : g.hungUp = false
  follows : Follows coder seats input h seen g.unread told
  stocked : Stocked seats input h (fun o _ => supplied h puts seen o) reads g.queues

theorem Supplied.deliver {coder : Coder β} {seats : List (Player β)}
    {input : Nat → Nat → Port → β} {h puts : Nat} {seen told told' : Nat → Nat}
    {reads : Port → Nat} {g : Game β} (hs : Supplied coder seats input h puts told reads g seen)
    {events : List IncomingEvent} (hf : Follows coder seats input h told events told')
    : Supplied coder seats input h puts told' reads (g.deliver events) seen := by
  rcases hs.inbound with ⟨events₀, hinbound⟩
  have hfollows := hs.follows
  have hdeliver : g.deliver events = { g with inbound := some { events := events₀ ++ events } } := by
    unfold Game.deliver
    rw [hinbound]
    rfl
  unfold Game.unread at hfollows
  rw [hinbound] at hfollows
  rw [hdeliver]
  exact ⟨⟨_, rfl⟩, hs.writes, hfollows.append hf, hs.stocked⟩

theorem bump_supplied_self {h puts : Nat} {seen : Nat → Nat}
    : bump (supplied h puts seen) h = supplied h (puts + 1) seen := by
  funext o
  unfold bump supplied
  by_cases heq : o = h
  . simp [heq]
  . simp [heq]

theorem Supplied.put {coder : Coder β} (hcoder : coder.Lawful) {seats : List (Player β)}
    {input : Nat → Nat → Port → β} {h puts : Nat} {seen told : Nat → Nat} {reads : Port → Nat}
    {g : Game β} (hapart : Apart seats) (hs : Supplied coder seats input h puts told reads g seen)
    {x : Player β} (hx : seats[h]? = some x) (hseat : x.game.SameSeat g)
    {updates : List (ButtonUpdate β)}
    (hports : (updates.map (·.port)).Perm x.game.localPorts.toList)
    (hupdates : ∀ u ∈ updates, u.frame.toInt = puts ∧ u.buttons = input h puts u.port)
    (hmax : puts + x.emulator.delay.toInt < 0x80000000)
    : ∃ keys, (g.put coder updates).result = .ok () ∧
        (g.put coder updates).sent = some { keys := keys } ∧ Tells coder (input h) x puts keys ∧
        Supplied coder seats input h (puts + 1) told reads (g.put coder updates).game seen := by
  have hmem : ∀ port, port ∈ updates.map (·.port) ↔ x.game.localPorts.contains port = true := by
    intro port
    rw [hports.mem_iff, PortSet.mem_toList]
  have hlocal : ∀ u ∈ updates, x.game.localPorts.contains u.port = true :=
    fun u hu => (hmem u.port).1 (List.mem_map_of_mem hu)
  rcases hs.stocked.storeUpdates hcoder hapart hx (hports.nodup_iff.2 (nodup_toList _)) hlocal
    hupdates (fun _ _ => by simp [supplied]) hmax with ⟨keys, queues', hstore, hstocked, heq, habout⟩
  have htells : Tells coder (input h) x puts keys := ⟨heq ▸ hports, habout⟩
  -- Everybody has a port, so there is something to send.
  rcases hapart.port h x hx with ⟨port, hport⟩
  rcases htells.mem_iff.2 hport with ⟨key, hkey, _⟩
  rcases hs.inbound with ⟨events, hinbound⟩
  have hput : g.put coder updates
      = { game := { g with queues := queues' }
          result := .ok ()
          sent := some { keys := keys }
          timed := [.keyWriteStart, .keyWriteFinish] } := by
    unfold Game.put
    rw [hseat.consoleId, hseat.localPorts, hstore]
    cases keys with
    | nil => simp at hkey
    | cons key rest =>
      have hwrites : g.writeFault? = none := by simp [Game.writeFault?, hinbound, hs.writes]
      unfold Game.writeFault? at hwrites ⊢
      dsimp
      rw [hwrites]
  rw [hput]
  refine ⟨keys, rfl, rfl, htells, ⟨events, hinbound⟩, hs.writes, hs.follows, ?_⟩
  have := hstocked.of_stockUp hx hmem
  simp only [bump_supplied_self] at this
  exact this

section Get

variable [Inhabited β] {coder : Coder β} {seats : List (Player β)}
  {input : Nat → Nat → Port → β} {h puts : Nat} {seen told : Nat → Nat} {reads : Port → Nat}
  {g : Game β}

theorem Supplied.getQueued (hapart : Apart seats)
    (hs : Supplied coder seats input h puts told reads g seen) {o : Nat} {y : Player β}
    (hy : seats[o]? = some y) {port : Port} (hport : y.game.localPorts.contains port = true)
    {frame : Int32} (hframe : frame.toInt = reads port)
    (hthere : reads port < y.emulator.delay.toInt + supplied h puts seen o)
    : ∃ g', g.getQueued port frame
          = (.ok (FrameQueue.readAt y.emulator.delay.toInt (fun n => input o n port)
            (reads port)), g') ∧
        g.SameSeat g' ∧ Supplied coder seats input h puts told (readUp reads port) g' seen := by
  rcases hs.stocked.get hapart hy hport hframe hthere with ⟨q, q', hq, hget, hstocked⟩
  exact ⟨_, Game.getQueued_ok hq hget, ⟨rfl, rfl, rfl⟩, hs.inbound, hs.writes, hs.follows, hstocked⟩

theorem Supplied.getFromStream? (hapart : Apart seats)
    (hs : Supplied coder seats input h puts told reads g seen)
    (hmax : ∀ (o : Nat) (y : Player β), o ≠ h → seats[o]? = some y →
      told o + y.emulator.delay.toInt < 0x80000000)
    {o : Nat} {y : Player β} (hy : seats[o]? = some y) {port : Port}
    (hport : y.game.localPorts.contains port = true) (ho : o ≠ h) {frame : Int32}
    (hframe : frame.toInt = reads port) (hlate : y.emulator.delay.toInt + seen o ≤ reads port)
    : (g.getFromStream? coder port frame = none ∧
        y.emulator.delay.toInt + told o ≤ reads port) ∨
      ∃ out seen', g.getFromStream? coder port frame = some out ∧
        out.result = .ok (FrameQueue.readAt y.emulator.delay.toInt (fun n => input o n port)
          (reads port)) ∧
        g.SameSeat out.game ∧
        Supplied coder seats input h puts told (readUp reads port) out.game seen' := by
  rcases hs.inbound with ⟨events, hinbound⟩
  have hfollows := hs.follows
  unfold Game.unread at hfollows
  rw [hinbound] at hfollows
  unfold Game.getFromStream?
  rw [hinbound]
  dsimp
  rcases pump?_cases hapart hfollows hs.stocked hmax hy hport hframe hlate 0 with
    ⟨hnone, hwait⟩ | ⟨pumped, seen', hsome, hfetched, hthere⟩
  . rw [hnone]
    exact Or.inl ⟨rfl, hwait ho⟩
  . right
    rw [hsome]
    have hnext : Supplied coder seats input h puts told reads
        { g with
          inbound := some pumped.inbound
          queues := pumped.queues
          status := if pumped.stopped then .terminated else g.status } seen' := by
      refine ⟨⟨pumped.inbound.events, ?_⟩, hs.writes, hfetched.follows, hfetched.stocked⟩
      have := hfetched.ending
      cases hin : pumped.inbound with
      | mk events ending =>
        rw [hin] at this
        dsimp at this
        rw [this]
    have hthere : reads port < y.emulator.delay.toInt + supplied h puts seen' o := by
      rw [supplied_of_ne ho]
      exact hthere
    rcases hnext.getQueued hapart hy hport hframe hthere with ⟨g', hget, hseat, hs'⟩
    dsimp
    rw [hfetched.result]
    dsimp
    rw [hget]
    exact ⟨_, seen', rfl, rfl, ⟨hseat.consoleId, hseat.clientId, hseat.localPorts⟩, hs'⟩

/--
A reader gets the next frame of a port as the owner has put it. It only has to wait if the port belongs
to somebody else who has not told about that frame.
-/
theorem Supplied.get? (hapart : Apart seats)
    (hs : Supplied coder seats input h puts told reads g seen)
    (hmax : ∀ (o : Nat) (y : Player β), o ≠ h → seats[o]? = some y →
      told o + y.emulator.delay.toInt < 0x80000000)
    {x : Player β} (hx : seats[h]? = some x) (hlocal : g.localPorts = x.game.localPorts)
    {o : Nat} {y : Player β} (hy : seats[o]? = some y) {port : Port}
    (hport : y.game.localPorts.contains port = true) {frame : Int32}
    (hframe : frame.toInt = reads port)
    (hown : o = h → reads port < y.emulator.delay.toInt + puts)
    : (g.get? coder port frame = none ∧ o ≠ h ∧ y.emulator.delay.toInt + told o ≤ reads port) ∨
      ∃ out seen', g.get? coder port frame = some out ∧
        out.result = .ok (FrameQueue.readAt y.emulator.delay.toInt (fun n => input o n port)
          (reads port)) ∧
        g.SameSeat out.game ∧
        Supplied coder seats input h puts told (readUp reads port) out.game seen' := by
  unfold Game.get?
  rw [hlocal]
  by_cases ho : o = h
  . subst ho
    rw [hy, Option.some.injEq] at hx
    subst hx
    have hthere : reads port < y.emulator.delay.toInt + supplied o puts seen o := by
      simp [supplied, hown]
    rcases hs.getQueued hapart hy hport hframe hthere with ⟨g', hget, hseat, hs'⟩
    rw [if_pos hport, hget]
    exact Or.inr ⟨_, seen, rfl, rfl, hseat, hs'⟩
  . rw [if_neg fun hx' => ho (hapart.owner o h y x port hy hx hport hx')]
    have hsupplied : supplied h puts seen o = seen o := supplied_of_ne ho
    unfold Game.getRemote?
    by_cases hthere : reads port < y.emulator.delay.toInt + seen o
    . rw [← hsupplied] at hthere
      rcases hs.getQueued hapart hy hport hframe hthere with ⟨g', hget, hseat, hs'⟩
      dsimp
      rw [hget]
      exact Or.inr ⟨_, seen, rfl, rfl, ⟨hseat.consoleId, hseat.clientId, hseat.localPorts⟩,
        hs'.inbound, hs'.writes, hs'.follows, hs'.stocked⟩
    . -- The queue is asked first, and its timeout is what makes the game read the event stream.
      have hlate : y.emulator.delay.toInt + seen o ≤ reads port := by omega
      rcases hs.stocked.get_timeout hy hport hframe (by rw [hsupplied]; exact hlate) with
        ⟨q, hq, hget⟩
      have htimeout : g.getQueued port frame = (.error (.queue port (.timeout frame)), g) := by
        unfold Game.getQueued
        rw [hq]
        dsimp
        rw [hget]
      dsimp
      rw [htimeout]
      dsimp
      rcases hs.getFromStream? hapart hmax hy hport ho hframe hlate with
        ⟨hnone, hwait⟩ | ⟨out, seen', hsome, hresult, hseat, hs'⟩
      . rw [hnone]
        exact Or.inl ⟨rfl, ho, hwait⟩
      . rw [hsome]
        exact Or.inr ⟨_, seen', rfl, hresult, ⟨hseat.consoleId, hseat.clientId, hseat.localPorts⟩,
          hs'.inbound, hs'.writes, hs'.follows, hs'.stocked⟩

end Get

end PadRelay
