import PadRelay.Proofs.FrameQueue.Absorbed
import PadRelay.Proofs.Game.Buttons

/-!
This module contains what reading the event stream does to the queues of a game if the stream has nothing
but messages about remote ports: all messages are stored, up to the event that was waited for.
-/

namespace PadRelay

variable {β : Type}

namespace Game

/-- The initial delay of a connected port whose buttons come from somebody else. -/
def remoteDelay? (g : Game β) (port : Port) : Option Int32 :=
  if g.localPorts.contains port then none else (g.queues.get? port).map (·.initial)

/--
A game that has not read anything yet of a stream of messages about remote ports, of which no two are
about the same port and frame.
-/
structure Readable (coder : Coder β) (g : Game β) (events : List IncomingEvent)
    (ending : Option StreamEnd) : Prop where
  inbound : g.inbound = some { events, ending }
  fresh : ∀ port initial, g.remoteDelay? port = some initial →
    g.queues.get? port = some (.forRemote initial)
  quiet : ∀ e ∈ events, e.start = none ∧ e.stop = none ∧ e.invalid = []
  sound : ∀ e ∈ events, ∀ key ∈ e.keys, 0 ≤ key.frame ∧
    (∃ initial, g.remoteDelay? key.target.1 = some initial ∧ initial ≤ key.frame) ∧
    ∃ buttons, coder.decode key = .ok buttons
  distinct : ((events.flatMap (·.keys)).map KeyState.target).Nodup

/-- The queues of all remote ports have absorbed the same messages. -/
def Caught (coder : Coder β) (g : Game β) (seen : List KeyState) (next : Port → Nat)
    (queues : Queues β) : Prop :=
  ∀ port initial, g.remoteDelay? port = some initial →
    ∃ q, queues.get? port = some q ∧ q.Absorbed coder port initial seen (next port)

section Caught

variable {coder : Coder β} {g : Game β} {events : List IncomingEvent} {seen keys : List KeyState}
  {next : Port → Nat} {queues : Queues β} {port : Port} {frame : Int32}

theorem mentions_iff_exists (port : Port) (frame : Int32) (keys : List KeyState)
    : mentions port frame keys = true ↔ ∃ key ∈ keys, key.target = (port, frame) := by
  simp [mentions, KeyState.target]

/-- What a message has to be like so that it is stored after the messages `seen`. -/
structure Storable (coder : Coder β) (g : Game β) (next : Port → Nat) (key : KeyState) : Prop where
  frame : 0 ≤ key.frame
  port : ∃ initial, g.remoteDelay? key.target.1 = some initial ∧ initial ≤ key.frame
  buttons : ∃ buttons, coder.decode key = .ok buttons
  ahead : (next key.target.1 : Int) ≤ key.frame.toInt

theorem Caught.put (hc : Caught coder g seen next queues) {key : KeyState}
    (hkey : Storable coder g next key) (hnew : ∀ key' ∈ seen, key'.target ≠ key.target)
    : ∃ q buttons q', queues.get? key.target.1 = some q ∧ coder.decode key = .ok buttons ∧
        q.put key.frame buttons = .ok q' ∧
        Caught coder g (seen ++ [key]) next (queues.insert key.target.1 q') := by
  rcases hkey.port with ⟨initial, hremote, hinitial⟩
  rcases hkey.buttons with ⟨buttons, hdecode⟩
  rcases hc _ initial hremote with ⟨q, hq, habsorbed⟩
  rcases habsorbed.put rfl hdecode hkey.frame hinitial hkey.ahead hnew with ⟨q', hput, habsorbed'⟩
  refine ⟨q, buttons, q', hq, hdecode, hput, ?_⟩
  intro port initial' hremote'
  by_cases heq : port = key.target.1
  . subst heq
    rw [hremote, Option.some.injEq] at hremote'
    rw [← hremote']
    exact ⟨q', SortedMap.get?_insert_self _ _ _, habsorbed'⟩
  . rcases hc port initial' hremote' with ⟨q₁, hq₁, habsorbed₁⟩
    refine ⟨q₁, ?_, habsorbed₁.skip fun h => heq h.symm⟩
    rw [SortedMap.get?_insert_of_ne _ heq, hq₁]

theorem Caught.storeKeys (hc : Caught coder g seen next queues)
    (hkeys : ∀ key ∈ keys, Storable coder g next key)
    (hdistinct : ((seen ++ keys).map KeyState.target).Nodup)
    : ∃ queues', Game.storeKeys coder keys queues = (.ok (), queues') ∧
        Caught coder g (seen ++ keys) next queues' := by
  induction keys generalizing seen queues with
  | nil =>
    rw [List.append_nil]
    exact ⟨queues, rfl, hc⟩
  | cons key rest ih =>
    have hsplit : seen ++ key :: rest = (seen ++ [key]) ++ rest := by simp
    have hnew : ∀ key' ∈ seen, key'.target ≠ key.target := by
      rw [List.map_append, List.map_cons, List.nodup_append] at hdistinct
      intro key' hmem
      exact hdistinct.2.2 _ (List.mem_map_of_mem hmem) _ List.mem_cons_self
    rcases hc.put (hkeys key List.mem_cons_self) hnew with
      ⟨q, buttons, q', hq, hdecode, hput, hc'⟩
    rw [hsplit] at hdistinct ⊢
    rcases ih hc' (fun key' hmem => hkeys key' (List.mem_cons_of_mem _ hmem)) hdistinct with
      ⟨queues', hstore, hc''⟩
    refine ⟨queues', ?_, hc''⟩
    unfold KeyState.target at hq hstore
    unfold Game.storeKeys
    dsimp at hq hstore ⊢
    rw [hq]
    dsimp
    rw [hdecode]
    dsimp
    rw [hput]
    exact hstore

theorem pump?_cons {e : IncomingEvent} {rest : List IncomingEvent} {ending : Option StreamEnd}
    {queues' : Queues β}
    (hquiet : e.start = none ∧ e.stop = none ∧ e.invalid = [])
    (hstore : Game.storeKeys coder e.keys queues = (.ok (), queues')) (k : Nat)
    : pump? coder port frame ending k (e :: rest) queues
        =
      if mentions port frame e.keys then
        some { result := .ok (), inbound := { events := rest, ending }, queues := queues', reads := k + 1 }
      else
        pump? coder port frame ending (k + 1) rest queues' := by
  rcases hquiet with ⟨hstart, hstop, hinvalid⟩
  simp [pump?, hstart, hstop, hinvalid, hstore]

/-- Events that are not about the buttons that are asked for are stored and passed over. -/
theorem Caught.pump?_append (hc : Caught coder g seen next queues)
    (hquiet : ∀ e ∈ events, e.start = none ∧ e.stop = none ∧ e.invalid = [])
    (hkeys : ∀ key ∈ events.flatMap (·.keys), Storable coder g next key)
    (hdistinct : ((seen ++ events.flatMap (·.keys)).map KeyState.target).Nodup)
    (hother : ∀ e ∈ events, mentions port frame e.keys = false) (rest : List IncomingEvent)
    (ending : Option StreamEnd) (k : Nat)
    : ∃ queues', Caught coder g (seen ++ events.flatMap (·.keys)) next queues' ∧
        pump? coder port frame ending k (events ++ rest) queues
          =
        pump? coder port frame ending (k + events.length) rest queues' := by
  induction events generalizing seen queues k with
  | nil =>
    rw [List.flatMap_nil, List.append_nil]
    exact ⟨queues, hc, rfl⟩
  | cons e events ih =>
    rw [List.flatMap_cons, ← List.append_assoc] at hdistinct ⊢
    have hkeys' : ∀ key ∈ e.keys, Storable coder g next key := by
      intro key hmem
      apply hkeys
      rw [List.flatMap_cons]
      exact List.mem_append_left _ hmem
    have hdistinct' : ((seen ++ e.keys).map KeyState.target).Nodup := by
      rw [List.map_append] at hdistinct
      exact (List.nodup_append.1 hdistinct).1
    rcases hc.storeKeys hkeys' hdistinct' with ⟨queues₁, hstore, hc₁⟩
    have hrest : ∀ key ∈ events.flatMap (·.keys), Storable coder g next key := by
      intro key hmem
      apply hkeys
      rw [List.flatMap_cons]
      exact List.mem_append_right _ hmem
    rcases ih hc₁ (fun e he => hquiet e (List.mem_cons_of_mem _ he)) hrest hdistinct
      (fun e he => hother e (List.mem_cons_of_mem _ he)) (k + 1) with ⟨queues₂, hc₂, hpump⟩
    refine ⟨queues₂, hc₂, ?_⟩
    rw [List.cons_append, pump?_cons (hquiet e List.mem_cons_self) hstore,
      hother e List.mem_cons_self, hpump, List.length_cons, if_neg (by simp), Nat.add_right_comm,
      Nat.add_assoc]

/-- Reading ends with the first event that is about the buttons that are asked for. -/
theorem Caught.pump?_found (hc : Caught coder g seen next queues) {e : IncomingEvent}
    (hquiet : ∀ x ∈ events ++ [e], x.start = none ∧ x.stop = none ∧ x.invalid = [])
    (hkeys : ∀ key ∈ (events ++ [e]).flatMap (·.keys), Storable coder g next key)
    (hdistinct : ((seen ++ (events ++ [e]).flatMap (·.keys)).map KeyState.target).Nodup)
    (hother : ∀ x ∈ events, mentions port frame x.keys = false)
    (hmentions : mentions port frame e.keys = true) (rest : List IncomingEvent)
    (ending : Option StreamEnd) (k : Nat)
    : ∃ queues' reads, Caught coder g (seen ++ (events ++ [e]).flatMap (·.keys)) next queues' ∧
        pump? coder port frame ending k (events ++ e :: rest) queues
          =
        some { result := .ok (), inbound := { events := rest, ending }, queues := queues', reads } := by
  rw [List.flatMap_append, List.flatMap_singleton, ← List.append_assoc] at hdistinct ⊢
  rw [List.flatMap_append, List.flatMap_singleton] at hkeys
  have hdistinct' : ((seen ++ events.flatMap (·.keys)).map KeyState.target).Nodup := by
    rw [List.map_append] at hdistinct
    exact (List.nodup_append.1 hdistinct).1
  rcases hc.pump?_append (fun x hx => hquiet x (List.mem_append_left _ hx))
    (fun key hkey => hkeys key (List.mem_append_left _ hkey)) hdistinct' hother (e :: rest) ending k with
    ⟨queues₁, hc₁, hpump⟩
  rcases hc₁.storeKeys (fun key hkey => hkeys key (List.mem_append_right _ hkey)) hdistinct with
    ⟨queues₂, hstore, hc₂⟩
  refine ⟨queues₂, k + events.length + 1, hc₂, ?_⟩
  rw [hpump, pump?_cons (hquiet e (by simp)) hstore, if_pos hmentions]

end Caught

/-- The message of a stream about a port and a frame. -/
def keyFor? (events : List IncomingEvent) (call : Port × Int32) : Option KeyState :=
  (events.flatMap (·.keys)).find? fun key => key.target = call

/-- How many events are needed to answer a call, or to know that it can not be answered. -/
def position (g : Game β) (events : List IncomingEvent) (call : Port × Int32) : Nat :=
  match g.remoteDelay? call.1 with
  | none => 0
  | some initial =>
    if call.2 < initial then 0
    else
      match events.findIdx? fun e => mentions call.1 call.2 e.keys with
      | none => events.length
      | some n => n + 1

def depth (g : Game β) (events : List IncomingEvent) (calls : List (Port × Int32)) : Nat :=
  calls.foldl (fun n call => max n (g.position events call)) 0

section Lookup

variable {coder : Coder β} {g : Game β} {events seen : List IncomingEvent}
  {ending : Option StreamEnd} {call : Port × Int32} {initial : Int32} {key : KeyState}

theorem mem_keys_iff {keys : List IncomingEvent}
    : (∃ e ∈ keys, mentions call.1 call.2 e.keys = true) ↔
        ∃ key ∈ keys.flatMap (·.keys), key.target = call := by
  simp only [mentions_iff_exists, List.mem_flatMap]
  constructor
  . rintro ⟨e, he, key, hkey, htarget⟩
    exact ⟨key, ⟨e, he, hkey⟩, htarget⟩
  . rintro ⟨key, ⟨e, he, hkey⟩, htarget⟩
    exact ⟨e, he, key, hkey, htarget⟩

theorem mentions_eq_false (hother : ∀ key ∈ seen.flatMap (·.keys), key.target ≠ call)
    : ∀ e ∈ seen, mentions call.1 call.2 e.keys = false := by
  intro e he
  rw [Bool.eq_false_iff]
  intro hmentions
  rcases mem_keys_iff.1 ⟨e, he, hmentions⟩ with ⟨key, hkey, htarget⟩
  exact hother key hkey htarget

/-- Two messages of the stream about the same port and frame are the same message. -/
theorem Readable.eq_of_target (h : g.Readable coder events ending) {key' : KeyState}
    (hkey : key ∈ events.flatMap (·.keys)) (hkey' : key' ∈ events.flatMap (·.keys))
    (heq : key'.target = key.target) : key' = key := by
  have hdistinct := h.distinct
  rcases List.append_of_mem hkey with ⟨before, after, hsplit⟩
  rw [hsplit, List.map_append, List.map_cons, List.nodup_append, List.nodup_cons] at hdistinct
  rw [hsplit, List.mem_append, List.mem_cons] at hkey'
  rcases hkey' with hmem | hsame | hmem
  . exact absurd heq
      (hdistinct.2.2 _ (List.mem_map_of_mem hmem) _ List.mem_cons_self)
  . exact hsame
  . exact absurd (heq ▸ List.mem_map_of_mem hmem) hdistinct.2.1.1

/-- The messages before a point of the stream and those after it are about different frames. -/
theorem Readable.target_ne_of_split (h : g.Readable coder events ending)
    {before after : List IncomingEvent} (hsplit : events = before ++ after) {key' : KeyState}
    (hkey : key ∈ before.flatMap (·.keys)) (hkey' : key' ∈ after.flatMap (·.keys))
    : key.target ≠ key'.target := by
  have hdistinct := h.distinct
  rw [hsplit, List.flatMap_append, List.map_append, List.nodup_append] at hdistinct
  exact hdistinct.2.2 _ (List.mem_map_of_mem hkey) _ (List.mem_map_of_mem hkey')

theorem Readable.sound_of_mem (h : g.Readable coder events ending)
    (hkey : key ∈ events.flatMap (·.keys))
    : 0 ≤ key.frame ∧
        (∃ initial, g.remoteDelay? key.target.1 = some initial ∧ initial ≤ key.frame) ∧
        ∃ buttons, coder.decode key = .ok buttons := by
  rw [List.mem_flatMap] at hkey
  rcases hkey with ⟨e, he, hkey⟩
  exact h.sound e he key hkey

theorem keyFor?_of_mem (h : g.Readable coder events ending)
    (hkey : key ∈ events.flatMap (·.keys)) : keyFor? events key.target = some key := by
  have hfound : (keyFor? events key.target).isSome = true := by
    unfold keyFor?
    rw [List.find?_isSome]
    exact ⟨key, hkey, by simp⟩
  rw [Option.isSome_iff_exists] at hfound
  rcases hfound with ⟨key', hkey'⟩
  have hmem := List.mem_of_find?_eq_some hkey'
  have htarget := List.find?_some hkey'
  rw [decide_eq_true_eq] at htarget
  rw [hkey', h.eq_of_target hkey hmem htarget]

theorem keyFor?_eq_some (h : keyFor? events call = some key)
    : key ∈ events.flatMap (·.keys) ∧ key.target = call := by
  have htarget := List.find?_some h
  rw [decide_eq_true_eq] at htarget
  exact ⟨List.mem_of_find?_eq_some h, htarget⟩

theorem keyFor?_eq_none (h : keyFor? events call = none)
    : ∀ key ∈ events.flatMap (·.keys), key.target ≠ call := by
  unfold keyFor? at h
  rw [List.find?_eq_none] at h
  intro key hkey htarget
  exact h key hkey (by simp [htarget])

theorem depth_append (calls : List (Port × Int32)) (call : Port × Int32)
    : g.depth events (calls ++ [call]) = max (g.depth events calls) (g.position events call) := by
  simp [depth]

theorem position_of_le (hremote : g.remoteDelay? call.1 = some initial)
    (hinitial : initial ≤ call.2) {n : Nat}
    (hfound : events.findIdx? (fun e => mentions call.1 call.2 e.keys) = some n)
    : g.position events call = n + 1 := by
  simp [position, hremote, Int32.not_lt.2 hinitial, hfound]

theorem position_of_missing (hremote : g.remoteDelay? call.1 = some initial)
    (hinitial : initial ≤ call.2)
    (hmissing : events.findIdx? (fun e => mentions call.1 call.2 e.keys) = none)
    : g.position events call = events.length := by
  simp [position, hremote, Int32.not_lt.2 hinitial, hmissing]

theorem findIdx?_split {α : Type} {p : α → Bool} {l : List α} (h : ∃ x ∈ l, p x = true)
    : ∃ before x after, l = before ++ x :: after ∧ p x = true ∧ (∀ y ∈ before, p y = false) ∧
        l.findIdx? p = some before.length := by
  have hfound := List.find?_isSome.2 h
  rw [Option.isSome_iff_exists] at hfound
  rcases hfound with ⟨x, hx⟩
  rcases List.find?_eq_some_iff_append.1 hx with ⟨hp, before, after, rfl, hbefore⟩
  have hbefore : ∀ y ∈ before, p y = false := by simpa using hbefore
  refine ⟨before, x, after, rfl, hp, hbefore, ?_⟩
  rw [List.findIdx?_append, List.findIdx?_eq_none_iff.2 hbefore]
  simp [List.findIdx?_cons, hp]

theorem Caught.insert {next next' : Port → Nat} {queues : Queues β} {port : Port}
    {q : FrameQueue β} {seen : List KeyState} (hc : Caught coder g seen next queues)
    (hremote : g.remoteDelay? port = some initial)
    (hq : q.Absorbed coder port initial seen (next' port))
    (hnext : ∀ port', port' ≠ port → next' port' = next port')
    : Caught coder g seen next' (queues.insert port q) := by
  intro port' initial' hremote'
  by_cases heq : port' = port
  . subst heq
    rw [hremote, Option.some.injEq] at hremote'
    rw [← hremote']
    exact ⟨q, SortedMap.get?_insert_self _ _ _, hq⟩
  . rw [SortedMap.get?_insert_of_ne _ heq, hnext port' heq]
    exact hc port' initial' hremote'

theorem localPorts_of_remoteDelay? {port : Port} (h : g.remoteDelay? port = some initial)
    : g.localPorts.contains port = false := by
  unfold remoteDelay? at h
  split at h
  . simp at h
  . next hremote => simpa using hremote

end Lookup

end Game

end PadRelay
