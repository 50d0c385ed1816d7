import Mathlib.Data.List.Basic
import PadRelay.Proofs.Game.LocalInput

/-!
This module contains what a put leaves behind that fails. Updates are stored one after the other, and
nothing is sent unless all of them can be stored, so a put is harmless only if it fails at its first
update. Otherwise buttons are left in the queues that nobody is told about and that can not be put again.
-/

namespace PadRelay

/-- What was put for one frame does not keep buttons from being put for another one. -/
theorem FrameQueue.put_put {β : Type} {q q' q'' : FrameQueue β} {frame frame' : Int32}
    {buttons buttons' : β} (h : q.put frame buttons = .ok q') (h' : q.put frame' buttons' = .ok q'')
    (hne : frame ≠ frame') : ∃ q₂, q'.put frame' buttons' = .ok q₂ := by
  rcases put_eq_ok_iff.1 h with ⟨x, _, hx, _, _, _, rfl⟩
  rcases put_eq_ok_iff.1 h' with ⟨y, hframe, hy, hinitial, hlatest, hfree, _⟩
  refine ⟨_, put_eq_ok_iff.2 ⟨y, hframe, hy, hinitial, hlatest, ?_, rfl⟩⟩
  dsimp
  rw [SortedMap.get?_insert_of_ne _ _ _, hfree]
  intro heq
  apply hne
  rw [← Int32.toInt_inj]
  rw [heq] at hy
  omega

namespace Game

variable {β : Type}

/-- An update that can not be stored: its port has no queue, or one that does not take the buttons. -/
def Refuses (queues : Queues β) (u : ButtonUpdate β) : Prop :=
  ∀ q, queues.get? u.port = some q → ∃ cause, q.put u.frame u.buttons = .error cause

/-- The queues take an update, and if its port is local there is a message about it. -/
def Valid (coder : Coder β) (consoleId : ConsoleId) (localPorts : PortSet) (queues : Queues β)
    (u : ButtonUpdate β) : Prop :=
  ∃ q q', queues.get? u.port = some q ∧ q.put u.frame u.buttons = .ok q' ∧
    (localPorts.contains u.port = true → ∃ key, keyOf coder consoleId q.delay u = .ok key)

/-- The messages about those updates whose port is local. -/
def messages (coder : Coder β) (consoleId : ConsoleId) (localPorts : PortSet) (queues : Queues β)
    (updates : List (ButtonUpdate β)) : List KeyState :=
  updates.filterMap fun u =>
    if localPorts.contains u.port then
      (queues.get? u.port).bind fun q => (keyOf coder consoleId q.delay u).toOption
    else none

/-- The buttons of an update are there to be read. -/
def Waits (queues : Queues β) (u : ButtonUpdate β) : Prop :=
  ∃ q x, queues.get? u.port = some q ∧ x.toInt = u.frame.toInt + q.delay.toInt ∧
    q.frames.get? x = some u.buttons

/-- Two updates are not about the same frame of one port. -/
def Apart (u v : ButtonUpdate β) : Prop :=
  u.port = v.port → u.frame ≠ v.frame

section Stored

variable {coder : Coder β} {consoleId : ConsoleId} {localPorts : PortSet} {queues : Queues β}
  {u v : ButtonUpdate β} {q q' : FrameQueue β}

theorem waits_insert (hput : q.put u.frame u.buttons = .ok q')
    : Waits (queues.insert u.port q') u := by
  rcases FrameQueue.put_eq_ok_iff.1 hput with ⟨x, _, hx, _, _, _, rfl⟩
  exact ⟨_, x, SortedMap.get?_insert_self _ _ _, hx, SortedMap.get?_insert_self _ _ _⟩

theorem Waits.insert (h : Waits queues v) (hq : queues.get? u.port = some q)
    (hput : q.put u.frame u.buttons = .ok q') : Waits (queues.insert u.port q') v := by
  rcases h with ⟨p, x, hp, hx, hwaits⟩
  by_cases hport : v.port = u.port
  . rw [hport, hq, Option.some.injEq] at hp
    subst hp
    have hextends := FrameQueue.extends_put hput
    refine ⟨q', x, ?_, ?_, hextends.frames x _ hwaits⟩
    . rw [hport, SortedMap.get?_insert_self]
    . rw [hextends.delay, hx]
  . refine ⟨p, x, ?_, hx, hwaits⟩
    rw [SortedMap.get?_insert_of_ne _ hport, hp]

theorem Waits.storeUpdates (h : Waits queues v) (coder : Coder β) (consoleId : ConsoleId)
    (localPorts : PortSet) (updates : List (ButtonUpdate β))
    : Waits (storeUpdates coder consoleId localPorts updates queues).2 v :=
  storeUpdates_induction coder consoleId localPorts updates
    (P := fun queues _ => Waits queues v)
    (fun _ _ _ _ _ hwaits _ hq hput => hwaits.insert hq hput) queues [] h

/-- An update that the queues take stays there, whatever comes of those after it. -/
theorem waits_storeUpdates (coder : Coder β) (consoleId : ConsoleId) (localPorts : PortSet)
    (rest : List (ButtonUpdate β)) (hq : queues.get? u.port = some q)
    (hput : q.put u.frame u.buttons = .ok q')
    : Waits (storeUpdates coder consoleId localPorts (u :: rest) queues).2 u := by
  have hfirst : Waits (queues.insert u.port q') u := waits_insert hput
  unfold Game.storeUpdates
  rw [hq]
  dsimp
  rw [hput]
  dsimp
  split
  . exact hfirst.storeUpdates coder consoleId localPorts rest
  . split
    . exact hfirst
    . exact hfirst.storeUpdates coder consoleId localPorts rest

theorem storeUpdates_of_refuses (h : Refuses queues u) (coder : Coder β) (consoleId : ConsoleId)
    (localPorts : PortSet) (rest : List (ButtonUpdate β))
    : (storeUpdates coder consoleId localPorts (u :: rest) queues).2 = queues := by
  unfold Game.storeUpdates
  cases hq : queues.get? u.port with
  | none => rfl
  | some q =>
    rcases h q hq with ⟨cause, hput⟩
    dsimp
    rw [hput]

/-- A put changes the queues as soon as they take its first update. -/
theorem storeUpdates_eq_iff (coder : Coder β) (consoleId : ConsoleId) (localPorts : PortSet)
    (rest : List (ButtonUpdate β))
    : (storeUpdates coder consoleId localPorts (u :: rest) queues).2 = queues ↔ Refuses queues u := by
  constructor
  . intro hsame q hq
    cases hput : q.put u.frame u.buttons with
    | error cause => exact ⟨cause, rfl⟩
    | ok q' =>
      -- The buttons would be there already, but then the queue would not have taken them.
      have hwaits := waits_storeUpdates coder consoleId localPorts rest hq hput
      rw [hsame] at hwaits
      rcases hwaits with ⟨p, x, hp, hx, hget⟩
      rw [hq, Option.some.injEq] at hp
      subst hp
      rcases FrameQueue.put_eq_ok_iff.1 hput with ⟨y, _, hy, _, _, hfree, _⟩
      have heq : x = y := Int32.toInt_inj.1 (hx.trans hy.symm)
      rw [heq, hfree] at hget
      simp at hget
  . exact fun h => storeUpdates_of_refuses h coder consoleId localPorts rest

theorem Valid.insert (h : Valid coder consoleId localPorts queues v) (hapart : Apart u v)
    (hq : queues.get? u.port = some q) (hput : q.put u.frame u.buttons = .ok q')
    : Valid coder consoleId localPorts (queues.insert u.port q') v := by
  rcases h with ⟨p, p', hp, hput', hkey⟩
  by_cases hport : v.port = u.port
  . rw [hport, hq, Option.some.injEq] at hp
    subst hp
    rcases FrameQueue.put_put hput hput' (hapart hport.symm) with ⟨q₂, hput₂⟩
    refine ⟨q', q₂, ?_, hput₂, ?_⟩
    . rw [hport, SortedMap.get?_insert_self]
    . rw [(FrameQueue.extends_put hput).delay]
      exact hkey
  . refine ⟨p, p', ?_, hput', hkey⟩
    rw [SortedMap.get?_insert_of_ne _ hport, hp]

/-- What the messages are like depends on the delays of the queues only. -/
theorem messages_insert (coder : Coder β) (consoleId : ConsoleId) (localPorts : PortSet)
    (updates : List (ButtonUpdate β)) (hq : queues.get? u.port = some q)
    (hput : q.put u.frame u.buttons = .ok q')
    : messages coder consoleId localPorts (queues.insert u.port q') updates
        =
      messages coder consoleId localPorts queues updates := by
  unfold messages
  apply List.filterMap_congr
  intro v _
  by_cases hport : v.port = u.port
  . rw [hport, SortedMap.get?_insert_self, hq]
    dsimp
    rw [(FrameQueue.extends_put hput).delay]
  . rw [SortedMap.get?_insert_of_ne _ hport]

/-- A valid update is stored, and the message about it precedes those about the rest. -/
theorem storeUpdates_cons (hq : queues.get? u.port = some q) (hput : q.put u.frame u.buttons = .ok q')
    (hkey : localPorts.contains u.port = true → ∃ key, keyOf coder consoleId q.delay u = .ok key)
    (rest : List (ButtonUpdate β))
    : storeUpdates coder consoleId localPorts (u :: rest) queues
        =
      let r := storeUpdates coder consoleId localPorts rest (queues.insert u.port q')
      (r.1.map (messages coder consoleId localPorts queues [u] ++ ·), r.2) := by
  conv => lhs; unfold storeUpdates
  unfold messages
  rw [hq]
  dsimp
  rw [hput]
  dsimp
  generalize storeUpdates coder consoleId localPorts rest (queues.insert u.port q') = r
  cases hlocal : localPorts.contains u.port with
  | false =>
    rcases r with ⟨_ | _, _⟩ <;> simp [hlocal, Except.map]
  | true =>
    rcases hkey hlocal with ⟨key, hkey⟩
    simp [hlocal, hq, hkey, Except.toOption]

/-- Valid updates of different frames do not get in each other's way. -/
theorem storeUpdates_of_valid {updates : List (ButtonUpdate β)}
    (hvalid : ∀ u ∈ updates, Valid coder consoleId localPorts queues u)
    (hapart : updates.Pairwise Apart)
    : (storeUpdates coder consoleId localPorts updates queues).1
          =
        .ok (messages coder consoleId localPorts queues updates) ∧
        ∀ u ∈ updates, Waits (storeUpdates coder consoleId localPorts updates queues).2 u := by
  induction updates generalizing queues with
  | nil => exact ⟨rfl, by simp⟩
  | cons u rest ih =>
    rw [List.forall_mem_cons] at hvalid
    rw [List.pairwise_cons] at hapart
    rcases hvalid with ⟨⟨q, q', hq, hput, hkey⟩, hrest⟩
    have hrest' : ∀ v ∈ rest, Valid coder consoleId localPorts (queues.insert u.port q') v :=
      fun v hv => (hrest v hv).insert (hapart.1 v hv) hq hput
    rcases ih hrest' hapart.2 with ⟨hkeys, hwaits⟩
    rw [messages_insert coder consoleId localPorts rest hq hput] at hkeys
    rw [List.forall_mem_cons]
    refine ⟨?_, waits_storeUpdates coder consoleId localPorts rest hq hput, ?_⟩
    . rw [storeUpdates_cons hq hput hkey]
      dsimp
      rw [hkeys]
      exact congrArg Except.ok List.filterMap_append.symm
    . rw [storeUpdates_cons hq hput hkey]
      exact hwaits

end Stored

section Failed

variable {coder : Coder β} {g : Game β} {updates : List (ButtonUpdate β)}

theorem storeUpdates_of_put_error {e : PutError} (h : (g.put coder updates).result = .error e)
    (hcause : ∀ cause, e ≠ .notTransmitted cause)
    : (storeUpdates coder g.consoleId g.localPorts updates g.queues).1 = .error e := by
  unfold put at h
  dsimp at h
  split at h
  . next hstore =>
    rw [Except.error.injEq] at h
    rw [hstore, h]
  . simp at h
  . split at h
    . next cause _ => exact absurd (Except.error.inj h).symm (hcause cause)
    . simp at h

/-- Valid updates of different frames are stored and sent together. -/
theorem put_of_valid (hwrites : g.writeFault? = none)
    (hvalid : ∀ u ∈ updates, Valid coder g.consoleId g.localPorts g.queues u)
    (hapart : updates.Pairwise Apart)
    : let o := g.put coder updates
      let keys := messages coder g.consoleId g.localPorts g.queues updates
      o.result = .ok () ∧ o.sent = (if keys = [] then none else some { keys }) ∧
        ∀ u ∈ updates, Waits o.game.queues u := by
  rcases storeUpdates_of_valid hvalid hapart with ⟨hkeys, hwaits⟩
  dsimp
  rw [put_game]
  unfold put
  dsimp
  rw [hkeys]
  cases hmessages : messages coder g.consoleId g.localPorts g.queues updates with
  | nil => exact ⟨rfl, rfl, hwaits⟩
  | cons key rest =>
    unfold writeFault? at hwrites ⊢
    rw [hwrites]
    exact ⟨rfl, by simp, hwaits⟩

end Failed

/--
A put that fails before anything is transmitted sends nothing. It changes nothing if and only if its
first update is one that the queues refuse, and then whatever is valid can be put afterwards.
-/
theorem failed_put_harmless {coder : Coder β} {g : Game β} {updates : List (ButtonUpdate β)}
    {e : PutError} (he : (g.put coder updates).result = .error e)
    (hcause : ∀ cause, e ≠ .notTransmitted cause)
    : (g.put coder updates).sent = none ∧
        ∃ u rest, updates = u :: rest ∧
          ((g.put coder updates).game = g ↔ Refuses g.queues u) ∧
          (Refuses g.queues u → g.writeFault? = none →
            ∀ valid : List (ButtonUpdate β),
              (∀ v ∈ valid, Valid coder g.consoleId g.localPorts g.queues v) →
              valid.Pairwise Apart →
              let o := (g.put coder updates).game.put coder valid
              let keys := messages coder g.consoleId g.localPorts g.queues valid
              o.result = .ok () ∧ o.sent = (if keys = [] then none else some { keys }) ∧
                ∀ v ∈ valid, Waits o.game.queues v) := by
  have hstore := storeUpdates_of_put_error he hcause
  constructor
  . cases hsent : (g.put coder updates).sent with
    | none => rfl
    | some _ =>
      rcases put_sent hsent with ⟨_, hok, _⟩
      simp [hok] at hstore
  . cases updates with
    | nil => simp [storeUpdates] at hstore
    | cons u rest =>
      have hsame : (g.put coder (u :: rest)).game = g ↔ Refuses g.queues u := by
        rw [← storeUpdates_eq_iff coder g.consoleId g.localPorts rest, put_game]
        constructor
        . intro h
          conv => rhs; rw [← h]
        . intro h
          rw [h]
      refine ⟨u, rest, rfl, hsame, ?_⟩
      intro hrefuses hwrites valid hvalid hapart
      rw [hsame.2 hrefuses]
      exact put_of_valid hwrites hvalid hapart

/-- A game of one emulator, which plays with the controller of port 1. -/
def alone : Game UInt32 :=
  soloist.run .word
    [.readyAndAwaitStart (.ok {
      events := [{ start := some { consoleId := 1, ports := [{ port := 1 }] } }] })]

/-- There is no port 2. As it comes first, the buttons of port 1 can be put once more without it. -/
theorem failed_put_harmless_misplaced
    : let o := alone.put .word [⟨.two, 0, 6⟩, ⟨.one, 0, 5⟩]
      o.result = .error (.noSuchPort .two) ∧ o.sent = none ∧ o.game = alone ∧
        (o.game.put .word [⟨.one, 0, 5⟩]).sent
          =
        some { keys := [{ consoleId := 1, port := 1, xAxis := 5 }] } := by
  have he : (alone.put .word [⟨.two, 0, 6⟩, ⟨.one, 0, 5⟩]).result = .error (.noSuchPort .two) := by
    decide +kernel
  rcases failed_put_harmless he (by simp) with ⟨hsent, u, rest, hsplit, hsame, hretry⟩
  rw [List.cons.injEq] at hsplit
  rcases hsplit with ⟨rfl, rfl⟩
  have hrefuses : Refuses alone.queues ⟨.two, 0, 6⟩ := by
    have hnone : alone.queues.get? .two = none := by decide +kernel
    intro q hq
    simp [hnone] at hq
  have hvalid : ∀ v ∈ [(⟨.one, 0, 5⟩ : ButtonUpdate UInt32)],
      Valid .word alone.consoleId alone.localPorts alone.queues v := by
    intro v hv
    rw [List.mem_singleton] at hv
    subst hv
    have hq : alone.queues.get? .one = some (.forLocal 0) := by decide +kernel
    exact ⟨_, _, hq, rfl, fun _ => ⟨_, rfl⟩⟩
  rcases hretry hrefuses rfl _ hvalid (List.pairwise_singleton _ _) with ⟨_, hsent', _⟩
  exact ⟨he, hsent, hsame.2 hrefuses, hsent'⟩

/--
As port 2 comes last here, the buttons of port 1 are stored, although they are never sent, and can not be
put once more.
-/
theorem not_failed_put_harmless
    : let o := alone.put .word [⟨.one, 0, 5⟩, ⟨.two, 0, 6⟩]
      o.result = .error (.noSuchPort .two) ∧ o.sent = none ∧ o.game ≠ alone ∧
        (o.game.put .word [⟨.one, 0, 5⟩]).result
          =
        .error (.rejectedByQueue .one (.duplicate 0)) ∧
        (o.game.put .word [⟨.one, 0, 5⟩]).sent = none := by
  decide +kernel

end Game
end PadRelay
