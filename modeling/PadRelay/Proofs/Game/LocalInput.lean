import PadRelay.Proofs.FrameQueue.History
import PadRelay.Proofs.Game.Runs

/-!
This module contains the proof that the queues of its own ports hold nothing but what the emulator put
there itself, as long as nobody else sends buttons of these ports. If somebody does, they are stored all
the same, and the buttons of the emulator are refused.
-/

namespace PadRelay

variable {β : Type}

/-- No message of an event is about one of the given ports. -/
def IncomingEvent.Spares (e : IncomingEvent) (ports : PortSet) : Prop :=
  ∀ key ∈ e.keys, ports.contains (Port.ofNumber key.port) = false

instance (e : IncomingEvent) (ports : PortSet) : Decidable (e.Spares ports) :=
  inferInstanceAs (Decidable (∀ key ∈ e.keys, ports.contains (Port.ofNumber key.port) = false))

namespace FrameQueue

variable [Inhabited β] {q : FrameQueue β} {x : Int32} {buttons : β}

theorem delay_after (q : FrameQueue β) (r : Request β) : (q.after r).delay = q.delay := by
  unfold after
  cases r with
  | put frame buttons =>
    dsimp
    split
    . rfl
    . next hput => exact (extends_put hput).delay
  | get frame =>
    dsimp
    split
    . rfl
    . next hget =>
      rcases get_eq_ok_iff.1 hget with ⟨_, ⟨_, _, rfl⟩ | ⟨_, _, rfl⟩⟩ <;> rfl

theorem get?_frames_after {r : Request β} (h : (q.after r).frames.get? x = some buttons)
    : q.frames.get? x = some buttons ∨
        ∃ frame, r = .put frame buttons ∧ q.target frame = x.toInt := by
  unfold after at h
  cases r with
  | put frame buttons' =>
    dsimp at h
    split at h
    . exact Or.inl h
    . next hput =>
      rcases put_eq_ok_iff.1 hput with ⟨y, _, hy, _, _, _, rfl⟩
      rw [SortedMap.get?_insert] at h
      split at h
      . next heq =>
        rw [Option.some.injEq] at h
        exact Or.inr ⟨frame, by rw [h], by rw [heq, hy]; rfl⟩
      . exact Or.inl h
  | get frame =>
    dsimp at h
    split at h
    . exact Or.inl h
    . next hget =>
      rcases get_eq_ok_iff.1 hget with ⟨_, ⟨_, _, rfl⟩ | ⟨_, _, rfl⟩⟩
      . exact Or.inl h
      . rw [SortedMap.get?_erase] at h
        split at h
        . simp at h
        . exact Or.inl h

/-- What waits in a queue waited there before, or one of the requests put it there. -/
theorem get?_frames_afterAll {requests : List (Request β)}
    (h : (q.afterAll requests).frames.get? x = some buttons)
    : q.frames.get? x = some buttons ∨
        ∃ frame, Request.put frame buttons ∈ requests ∧ q.target frame = x.toInt := by
  induction requests generalizing q with
  | nil => exact Or.inl h
  | cons r rest ih =>
    rcases ih h with h | ⟨frame, hmem, htarget⟩
    . rcases get?_frames_after h with h | ⟨frame, rfl, htarget⟩
      . exact Or.inl h
      . exact Or.inr ⟨frame, List.mem_cons_self, htarget⟩
    . unfold target at htarget ⊢
      rw [delay_after] at htarget
      exact Or.inr ⟨frame, List.mem_cons_of_mem _ hmem, htarget⟩

end FrameQueue

namespace Game

/-- The requests to the queue of a port that some accepted updates stand for. -/
def putsFor (port : Port) (updates : List (ButtonUpdate β)) : List (FrameQueue.Request β) :=
  (updates.filter (·.port = port)).map fun u => .put u.frame u.buttons

theorem putsFor_append (port : Port) (updates updates' : List (ButtonUpdate β))
    : putsFor port (updates ++ updates') = putsFor port updates ++ putsFor port updates' := by
  simp [putsFor]

theorem putsFor_singleton (port : Port) (u : ButtonUpdate β)
    : putsFor port [u] = if u.port = port then [.put u.frame u.buttons] else [] := by
  by_cases h : u.port = port <;> simp [putsFor, h]

/-- What the emulator asks of the queue of a port with an action. -/
def requests (coder : Coder β) (g : Game β) (port : Port) : Action β → List (FrameQueue.Request β)
  | .put updates => putsFor port (accepted coder g.consoleId g.localPorts updates g.queues)
  | .get port' frame => if port' = port then [.get frame] else []
  | _ => []

theorem accepted_subset (coder : Coder β) (consoleId : ConsoleId) (localPorts : PortSet)
    (updates : List (ButtonUpdate β)) (queues : Queues β)
    : accepted coder consoleId localPorts updates queues ⊆ updates := by
  have h := storeUpdates_induction coder consoleId localPorts updates
    (P := fun _ done => done ⊆ updates) ?_ queues [] (List.nil_subset _)
  . simpa using h
  . intro queues done u q q' hdone hu _ _
    exact List.append_subset.2 ⟨hdone, by simpa using hu⟩

theorem mem_requests {coder : Coder β} {g : Game β} {port : Port} {a : Action β} {frame : Int32}
    {buttons : β} (h : .put frame buttons ∈ g.requests coder port a)
    : ∃ updates, a = .put updates ∧ (⟨port, frame, buttons⟩ : ButtonUpdate β) ∈ updates := by
  cases a with
  | put updates =>
    refine ⟨updates, rfl, ?_⟩
    unfold requests putsFor at h
    rw [List.mem_map] at h
    rcases h with ⟨u, hu, heq⟩
    rw [List.mem_filter, decide_eq_true_eq] at hu
    rw [FrameQueue.Request.put.injEq] at heq
    have hmem := accepted_subset _ _ _ _ _ hu.1
    rw [← heq.1, ← heq.2, ← hu.2]
    exact hmem
  | get port' frame' =>
    unfold requests at h
    dsimp at h
    split at h <;> simp at h
  | _ => simp [requests] at h

theorem requests_of_not_uses {coder : Coder β} {g : Game β} {port : Port} {a : Action β}
    (ha : a.uses port = false) : g.requests coder port a = [] := by
  cases a with
  | put updates =>
    unfold requests putsFor
    rw [List.map_eq_nil_iff, List.filter_eq_nil_iff]
    intro u hu
    have hmem := accepted_subset _ _ _ _ _ hu
    unfold Action.uses at ha
    rw [List.any_eq_false] at ha
    exact ha u hmem
  | get port' frame =>
    unfold requests
    dsimp
    rw [if_neg (by simpa [Action.uses] using ha)]
  | _ => rfl

theorem Stores.get?_of_spared {coder : Coder β} {port : Port} {keys : List KeyState}
    {queues queues' : Queues β} (h : Stores coder keys queues queues')
    (hkeys : ∀ key ∈ keys, Port.ofNumber key.port ≠ port)
    : queues'.get? port = queues.get? port := by
  induction h with
  | refl => rfl
  | put _ hmem _ _ _ ih => rw [SortedMap.get?_insert_of_ne _ (hkeys _ hmem).symm, ih]

theorem create?_eq_ok {consoleId : ConsoleId} {clientId : ClientId} {ports : List Port}
    {g : Game β} (h : create? consoleId clientId ports = .ok g)
    : g = { consoleId, clientId, localPorts := .ofList ports } := by
  unfold create? at h
  dsimp at h
  split at h
  . simp at h
  . split at h
    . simp at h
    . split at h
      . simp at h
      . split at h
        . simp at h
        . split at h
          . simp at h
          . rw [Except.ok.injEq] at h
            exact h.symm

section Requests

variable [Inhabited β] {coder : Coder β} {g : Game β} {port : Port}

/-- What the emulator asks of the queue of a port with a number of actions. -/
def requestsAlong (coder : Coder β) (g : Game β) (port : Port) :
    List (Action β) → List (FrameQueue.Request β)
  | [] => []
  | a :: rest => g.requests coder port a ++ (g.act coder a).requestsAlong coder port rest

theorem mem_requestsAlong {actions : List (Action β)} {frame : Int32} {buttons : β}
    (h : .put frame buttons ∈ g.requestsAlong coder port actions)
    : ∃ updates, .put updates ∈ actions ∧ (⟨port, frame, buttons⟩ : ButtonUpdate β) ∈ updates := by
  induction actions generalizing g with
  | nil => simp [requestsAlong] at h
  | cons a rest ih =>
    unfold requestsAlong at h
    cases List.mem_append.1 h with
    | inl h =>
      rcases mem_requests h with ⟨updates, rfl, hmem⟩
      exact ⟨updates, List.mem_cons_self, hmem⟩
    | inr h =>
      rcases ih h with ⟨updates, hput, hmem⟩
      exact ⟨updates, List.mem_cons_of_mem _ hput, hmem⟩

theorem get?_storeUpdates (coder : Coder β) (consoleId : ConsoleId) (localPorts : PortSet)
    (updates : List (ButtonUpdate β)) (queues : Queues β)
    : (storeUpdates coder consoleId localPorts updates queues).2.get? port
        =
      (queues.get? port).map
        (·.afterAll (putsFor port (accepted coder consoleId localPorts updates queues))) := by
  have h := storeUpdates_induction coder consoleId localPorts updates
    (P := fun queues' done =>
      queues'.get? port = (queues.get? port).map (·.afterAll (putsFor port done))) ?_ queues []
    (by simp [putsFor, FrameQueue.afterAll])
  . simpa using h
  . intro queues' done u q q' hdone _ hq hput
    rw [putsFor_append, putsFor_singleton, SortedMap.get?_insert]
    by_cases hport : u.port = port
    . rw [if_pos hport.symm, if_pos hport]
      rw [← hport, hq, eq_comm, Option.map_eq_some_iff] at hdone
      rcases hdone with ⟨q₀, hq₀, hdone⟩
      rw [← hport, hq₀, Option.map_some, FrameQueue.afterAll_append, hdone]
      simp [FrameQueue.afterAll, FrameQueue.after, hput]
    . rw [if_neg (fun h => hport h.symm), if_neg hport, List.append_nil]
      exact hdone

theorem get?_getQueued {port' : Port} {frame : Int32}
    : (g.getQueued port' frame).2.queues.get? port
        =
      (g.queues.get? port).map (·.afterAll (g.requests coder port (.get port' frame))) := by
  unfold requests
  dsimp
  split
  . next hport =>
    subst hport
    unfold getQueued
    cases hq : g.queues.get? port' with
    | none => exact hq
    | some q =>
      cases hget : q.get frame with
      | error cause => simp [hget, hq, FrameQueue.afterAll, FrameQueue.after]
      | ok r => simp [hget, FrameQueue.afterAll, FrameQueue.after, SortedMap.get?_insert_self]
  . next hport =>
    have hmap : (g.queues.get? port).map (·.afterAll []) = g.queues.get? port := by
      simp [FrameQueue.afterAll]
    rw [hmap]
    rcases getQueued_cases g port' frame with ⟨_, heq⟩ | ⟨_, _, _, _, _, heq⟩
    . rw [heq]
    . rw [heq]
      exact SortedMap.get?_insert_of_ne _ (Ne.symm hport) _

/-- What an action does to the queue of a local port. -/
theorem get?_act (coder : Coder β) (hlocal : g.localPorts.contains port = true)
    (hspares : ∀ e ∈ g.unread, e.Spares g.localPorts) (a : Action β)
    : (g.act coder a).queues.get? port
          =
        (g.queues.get? port).map (·.afterAll (g.requests coder port a)) ∨
      a.awaitsStart = true ∧ ((g.act coder a).queues.get? port = none ∨
        g.queues.get? port = none ∧
          ∃ delay, (g.act coder a).queues.get? port = some (.forLocal delay)) := by
  have halters := (acts_act coder g a).queues
  have hsame : (g.queues.get? port).map (·.afterAll []) = g.queues.get? port := by
    simp [FrameQueue.afterAll]
  generalize (g.act coder a).queues = queues at halters ⊢
  cases halters with
  | rest ha =>
    rw [requests_of_not_uses (ha port), hsame]
    exact Or.inl rfl
  | giveUp ha => exact Or.inr ⟨ha, Or.inl rfl⟩
  | connect ha hconnects =>
    rw [requests_of_not_uses (Action.uses_of_awaitsStart ha port), hsame]
    cases hq : g.queues.get? port with
    | some q => exact Or.inl (hconnects.kept port q hq)
    | none =>
      cases hq' : queues.get? port with
      | none => exact Or.inl rfl
      | some q' =>
        rcases hconnects.origin port q' hq' with h | ⟨connected, _, _, rfl⟩
        . simp [hq] at h
        . refine Or.inr ⟨ha, Or.inr ⟨rfl, connected.delayFrames, ?_⟩⟩
          simp [newQueue, hlocal]
  | put updates => exact Or.inl (get?_storeUpdates coder g.consoleId g.localPorts updates g.queues)
  | getLocal _ => exact Or.inl get?_getQueued
  | @getRemote port' frame read _ hremote hstores hqueues =>
    left
    have hport : port ≠ port' := by
      rintro rfl
      simp [hlocal] at hremote
    have hunused : (Action.get port' frame : Action β).uses port = false := by
      simpa [Action.uses] using hport.symm
    rw [requests_of_not_uses hunused, hsame, hqueues port hport]
    apply hstores.get?_of_spared
    intro key hkey heq
    rw [List.mem_flatMap] at hkey
    rcases hkey with ⟨e, he, hkey⟩
    have hspared := hspares e he key hkey
    rw [heq, hlocal] at hspared
    simp at hspared

theorem spares_act (hspares : ∀ e ∈ g.unread, e.Spares g.localPorts) {a : Action β}
    (ha : ∀ e ∈ a.arriving, e.Spares g.localPorts)
    : ∀ e ∈ (g.act coder a).unread, e.Spares (g.act coder a).localPorts := by
  intro e he
  have hacts := acts_act coder g a
  rw [hacts.seat.localPorts]
  cases hacts.unread e he with
  | inl he => exact hspares e he
  | inr he => exact ha e he

theorem spares_rest (coder : Coder β) {a : Action β} {rest : List (Action β)}
    (harriving : ∀ a' ∈ a :: rest, ∀ e ∈ a'.arriving, e.Spares g.localPorts)
    : ∀ a' ∈ rest, ∀ e ∈ a'.arriving, e.Spares (g.act coder a).localPorts := by
  intro a' ha'
  rw [(acts_act coder g a).seat.localPorts]
  exact harriving a' (List.mem_cons_of_mem _ ha')

/--
The queue of a local port after a run is made of what the emulator asked of it: since the start of the
run, or since it was connected.
-/
theorem get?_run (hlocal : g.localPorts.contains port = true)
    (hspares : ∀ e ∈ g.unread, e.Spares g.localPorts) {actions : List (Action β)}
    (harriving : ∀ a ∈ actions, ∀ e ∈ a.arriving, e.Spares g.localPorts) {q : FrameQueue β}
    (hq : (g.run coder actions).queues.get? port = some q)
    : (∃ q₀, g.queues.get? port = some q₀ ∧ q = q₀.afterAll (g.requestsAlong coder port actions)) ∨
        ∃ before after delay, actions = before ++ after ∧
          (g.run coder before).queues.get? port = some (.forLocal delay) ∧
          q = (FrameQueue.forLocal delay).afterAll
            ((g.run coder before).requestsAlong coder port after) := by
  induction actions generalizing g with
  | nil => exact Or.inl ⟨q, hq, rfl⟩
  | cons a rest ih =>
    have ha : ∀ e ∈ a.arriving, e.Spares g.localPorts := harriving a List.mem_cons_self
    have hseat := (acts_act coder g a).seat.localPorts
    have hrest := spares_rest coder harriving
    rcases ih (hseat ▸ hlocal) (spares_act hspares ha) hrest hq with
      ⟨q₁, hq₁, heq⟩ | ⟨before, after, delay, rfl, hfresh, heq⟩
    . rcases get?_act coder hlocal hspares a with hact | ⟨_, hnone | ⟨_, delay, hfresh⟩⟩
      . rw [hq₁, eq_comm, Option.map_eq_some_iff] at hact
        rcases hact with ⟨q₀, hq₀, rfl⟩
        rw [← FrameQueue.afterAll_append] at heq
        exact Or.inl ⟨q₀, hq₀, heq⟩
      . simp [hnone] at hq₁
      . rw [hq₁, Option.some.injEq] at hfresh
        subst hfresh
        exact Or.inr ⟨[a], rest, delay, rfl, hq₁, heq⟩
    . exact Or.inr ⟨a :: before, after, delay, rfl, hfresh, heq⟩

theorem spares_run (coder : Coder β) (hspares : ∀ e ∈ g.unread, e.Spares g.localPorts)
    {actions : List (Action β)}
    (harriving : ∀ a ∈ actions, ∀ e ∈ a.arriving, e.Spares g.localPorts)
    : (g.run coder actions).localPorts = g.localPorts ∧
        ∀ e ∈ (g.run coder actions).unread, e.Spares (g.run coder actions).localPorts := by
  induction actions generalizing g with
  | nil => exact ⟨rfl, hspares⟩
  | cons a rest ih =>
    have hseat := (acts_act coder g a).seat.localPorts
    have hrest := spares_rest coder harriving
    rcases ih (spares_act hspares (harriving a List.mem_cons_self)) hrest with ⟨hports, hunread⟩
    exact ⟨hports.trans hseat, hunread⟩

end Requests

/--
A game of which nobody else sends buttons of its local ports. What the queue of a local port is like
depends on what the emulator put there and got from there since it was connected, and on nothing else:
whatever waits there was put by the emulator, and events change nothing about it.
-/
theorem local_queues_owned [Inhabited β] (coder : Coder β) {consoleId : ConsoleId}
    {clientId : ClientId} {ports : List Port} {g : Game β}
    (hcreate : create? consoleId clientId ports = .ok g) {actions : List (Action β)}
    (harriving : ∀ a ∈ actions, ∀ e ∈ a.arriving, e.Spares g.localPorts) {port : Port}
    (hlocal : g.localPorts.contains port = true)
    : (∀ q, (g.run coder actions).queues.get? port = some q →
        ∃ before after delay, actions = before ++ after ∧
          (g.run coder before).queues.get? port = some (.forLocal delay) ∧
          q = (FrameQueue.forLocal delay).afterAll
            ((g.run coder before).requestsAlong coder port after) ∧
          ∀ x buttons, q.frames.get? x = some buttons →
            ∃ updates u, .put updates ∈ after ∧ u ∈ updates ∧ u.port = port ∧
              u.buttons = buttons ∧ x.toInt = u.frame.toInt + delay.toInt) ∧
        ∀ before a after, actions = before ++ a :: after → a.uses port = false →
          (g.run coder (before ++ [a])).queues.get? port = (g.run coder before).queues.get? port ∨
            a.awaitsStart = true ∧ ((g.run coder (before ++ [a])).queues.get? port = none ∨
              (g.run coder before).queues.get? port = none ∧
                ∃ delay, (g.run coder (before ++ [a])).queues.get? port = some (.forLocal delay)) := by
  have hnew := create?_eq_ok hcreate
  have hempty : g.queues.get? port = none := by
    rw [hnew]
    rfl
  have hspares : ∀ e ∈ g.unread, e.Spares g.localPorts := by
    rw [hnew]
    simp [unread]
  constructor
  . intro q hq
    rcases get?_run hlocal hspares harriving hq with
      ⟨q₀, hq₀, _⟩ | ⟨before, after, delay, hsplit, hfresh, heq⟩
    . simp [hempty] at hq₀
    . refine ⟨before, after, delay, hsplit, hfresh, heq, ?_⟩
      intro x buttons hx
      rw [heq] at hx
      rcases FrameQueue.get?_frames_afterAll hx with hx | ⟨frame, hmem, htarget⟩
      . simp [FrameQueue.forLocal] at hx
      . rcases mem_requestsAlong hmem with ⟨updates, hput, hu⟩
        exact ⟨updates, _, hput, hu, rfl, rfl, htarget.symm⟩
  . intro before a after hsplit hunused
    have hbefore : ∀ a' ∈ before, ∀ e ∈ a'.arriving, e.Spares g.localPorts := by
      intro a' ha'
      apply harriving
      rw [hsplit]
      exact List.mem_append_left _ ha'
    rcases spares_run coder hspares hbefore with ⟨hports, hunread⟩
    have hact := get?_act coder (hports ▸ hlocal) hunread a
    rw [requests_of_not_uses hunused] at hact
    simpa [run, FrameQueue.afterAll] using hact

def soloist : Game UInt32 where
  consoleId := ⟨1⟩
  clientId := ⟨1⟩
  localPorts := .ofList [.one]

/-- What the server sends first if ports 1 and 2 of console 1 are connected. -/
def opening : Inbound where
  events := [{ start := some { consoleId := 1, ports := [{ port := 1 }, { port := 2 }] } }]

def undisturbed : List (Action UInt32) :=
  [.readyAndAwaitStart (.ok opening),
    .put [⟨.one, 0, 5⟩, ⟨.one, 1, 6⟩],
    .deliver [{ keys := [{ consoleId := 1, port := 2, xAxis := 7 }] }],
    .get .two 0,
    .get .one 0]

/-- Buttons of another port are read before the emulator gets its own. -/
theorem local_queues_owned_undisturbed
    : ((soloist.run .word undisturbed).queues.get? .one).bind (·.frames.get? 1) = some 6 ∧
        (∃ updates u, .put updates ∈ undisturbed ∧ u ∈ updates ∧ u.port = .one ∧ u.buttons = 6) ∧
        (soloist.run .word (undisturbed.take 4)).queues.get? .one
          =
        (soloist.run .word (undisturbed.take 3)).queues.get? .one := by
  have hcreate : create? ⟨1⟩ ⟨1⟩ [.one] = .ok soloist := by rfl
  have harriving : ∀ a ∈ undisturbed, ∀ e ∈ a.arriving, e.Spares soloist.localPorts := by
    decide +kernel
  have hwaits : ((soloist.run .word undisturbed).queues.get? .one).bind (·.frames.get? 1)
      = some 6 := by
    decide +kernel
  have hlocal : soloist.localPorts.contains .one = true := rfl
  rcases local_queues_owned .word hcreate harriving hlocal with ⟨howned, hkept⟩
  refine ⟨hwaits, ?_, ?_⟩
  . rw [Option.bind_eq_some_iff] at hwaits
    rcases hwaits with ⟨q, hq, hwaits⟩
    rcases howned q hq with ⟨before, after, _, hsplit, _, _, hput⟩
    rcases hput 1 6 hwaits with ⟨updates, u, hmem, hu, hport, hbuttons, _⟩
    rw [hsplit]
    exact ⟨updates, u, List.mem_append_right _ hmem, hu, hport, hbuttons⟩
  . rcases hkept (undisturbed.take 3) (.get .two 0) [.get .one 0] rfl rfl with heq | ⟨ha, _⟩
    . exact heq
    . simp [Action.awaitsStart] at ha

/-- Somebody sends buttons of port 1, which is a port of the emulator itself. -/
def intruded : List (Action UInt32) :=
  [.readyAndAwaitStart (.ok opening),
    .deliver [{ keys := [{ consoleId := 1, port := 1 }, { consoleId := 1, port := 2 }] }],
    .get .two 0]

/-- Buttons that the emulator never put wait in the queue of its port, so it can not put its own. -/
theorem not_local_queues_owned
    : create? ⟨1⟩ ⟨1⟩ [.one] = .ok soloist ∧ soloist.localPorts.contains .one = true ∧
        (∀ updates, .put updates ∉ intruded) ∧
        ((soloist.run .word intruded).queues.get? .one).bind (·.frames.get? 0) = some 0 ∧
        ((soloist.run .word intruded).put .word [⟨.one, 0, 5⟩]).result
          =
        .error (.rejectedByQueue .one (.duplicate 0)) := by
  refine ⟨rfl, rfl, by simp [intruded], by decide +kernel, rfl⟩

end Game
end PadRelay
