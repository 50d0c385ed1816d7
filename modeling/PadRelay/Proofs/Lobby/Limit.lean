import PadRelay.Proofs.Console.Treatment
import PadRelay.Proofs.Lobby.Basic

/-!
This module contains the proof that a lobby keeps its limit. Consoles may be opened, used and stopped in
any order, also after they left the list. There are never more of them on the list than the limit allows,
a new one is refused only if as many are not over, and no identifier is used twice.
-/

namespace PadRelay
namespace Console

/-- What may be done with a console, apart from assigning ports. -/
inductive Operation where
  | bind (id : ClientId) (mailbox : Nat)
  | handle (id : ClientId) (e : OutgoingEvent)
  | broadcastKeys (keys : List KeyState) (sender : ClientId)
  | start
  | broadcastStart
  | stop
  | streamClosed (id : ClientId)
  | updateMember (id : ClientId) (f : Member → Mailroom → Member × Mailroom)

def operate (c : Console) (room : Mailroom) : Operation → Console × Mailroom
  | .bind id mailbox => ((c.bind? id mailbox).getD c, room)
  | .handle id e => c.handle id e room
  | .broadcastKeys keys sender => c.broadcastKeys keys sender room
  | .start =>
    match c.start room with
    | .error _ => (c, room)
    | .ok r => r
  | .broadcastStart => c.broadcastStart room
  | .stop => c.stop room
  | .streamClosed id => c.streamClosed id room
  | .updateMember id f => c.updateMember id f room

theorem id_operate (c : Console) (room : Mailroom) (op : Operation)
    : (c.operate room op).1.id = c.id := by
  cases op with
  | bind id mailbox =>
    unfold operate bind?
    dsimp
    split
    . rfl
    . next m _ => cases m.bind? mailbox <;> rfl
  | handle id e => exact id_handle c id e room
  | broadcastKeys keys sender => rfl
  | start =>
    unfold operate
    dsimp
    split
    . rfl
    . next h =>
      rcases Server.start_eq_ok h with ⟨_, _, rfl⟩
      exact id_broadcastStart c room
  | broadcastStart => exact id_broadcastStart c room
  | stop => exact id_stop c room
  | streamClosed id => exact id_streamClosed c id room
  | updateMember id f => exact id_updateMember c id f room

end Console

namespace Lobby

/-- A call, or something that happens to a console or a mailbox meanwhile. -/
inductive Operation where
  | create (title romName romHash : String)
  | plug (k : Nat) (delay : Int32) (requested : List Port) (romHash : String)
  | operate (k : Nat) (op : Console.Operation)
  | stopAll
  | removeFinished
  | openBox (capacity : Nat)
  | take (box n : Nat)
  | closeSender (box : Nat)
  | closeReader (box : Nat)

def step (s : Lobby × Mailroom) : Operation → Lobby × Mailroom
  | .create title romName romHash => ((s.1.create title romName romHash).2, s.2)
  | .plug k delay requested romHash =>
    match s.1.console? k with
    | none => s
    | some c =>
      match s.1.plug k c delay requested romHash with
      | .error _ => s
      | .ok (_, l) => (l, s.2)
  | .operate k op =>
    match s.1.console? k with
    | none => s
    | some c =>
      let r := c.operate s.2 op
      (s.1.set k r.1, r.2)
  | .stopAll => s.1.stopAll s.2
  | .removeFinished => (s.1.removeFinished, s.2)
  | .openBox capacity => (s.1, s.2.openBox capacity)
  | .take box n => (s.1, (s.2.take box n).2)
  | .closeSender box => (s.1, s.2.closeSender box)
  | .closeReader box => (s.1, s.2.closeReader box)

def run (s : Lobby × Mailroom) (ops : List Operation) : Lobby × Mailroom :=
  ops.foldl step s

/-- The identifier that an operation returns, if it opens a console. -/
def returned? (s : Lobby × Mailroom) : Operation → Option ConsoleId
  | .create title romName romHash => (s.1.create title romName romHash).1
  | _ => none

/-- The identifiers that a run returns, in the order of the calls. -/
def returned (s : Lobby × Mailroom) (ops : List Operation) : List ConsoleId :=
  answers step returned? s ops

theorem run_append (s : Lobby × Mailroom) (ops ops' : List Operation)
    : run s (ops ++ ops') = run (run s ops) ops' := by
  simp [run]

theorem returned_append (s : Lobby × Mailroom) (ops ops' : List Operation)
    : returned s (ops ++ ops') = returned s ops ++ returned (run s ops) ops' := by
  unfold returned run
  rw [answers_append]

theorem sameRegister_stopAll (l : Lobby) (room : Mailroom) : l.SameRegister (l.stopAll room).1 where
  register := by
    unfold stopAll register
    dsimp
    generalize l.consoles = entries
    induction entries generalizing room with
    | nil => rfl
    | cons e rest ih =>
      unfold stopListed
      dsimp
      rw [List.map_cons, List.map_cons, ih]
      split <;> rfl
  consoleIds := rfl
  limit := rfl

/-- What an operation makes of the list, and the identifier that it returns. -/
inductive Steps (l : Lobby) : Option ConsoleId → Lobby → Prop
  | same {l' : Lobby} : l.SameRegister l' → Steps l none l'
  | prune : Steps l none l.removeFinished
  | create {title romName romHash : String} :
    (∀ n, l.limit = some n → l.unfinished.length < n) →
    Steps l (some ⟨l.consoleIds.next⟩) (l.opened title romName romHash)

theorem steps_step (s : Lobby × Mailroom) (op : Operation)
    : Steps s.1 (returned? s op) (step s op).1 := by
  cases op with
  | create title romName romHash =>
    unfold returned? step
    dsimp
    rcases create_cases s.1 title romName romHash with ⟨_, heq⟩ | ⟨hroom, heq⟩
    . rw [heq]
      exact .prune
    . rw [heq]
      exact .create hroom
  | plug k delay requested romHash =>
    unfold returned? step
    dsimp
    split
    . exact .same (.refl s.1)
    . next c hc =>
      split
      . exact .same (.refl s.1)
      . next hplug => exact .same (sameRegister_plug hc hplug)
  | operate k op =>
    unfold returned? step
    dsimp
    split
    . exact .same (.refl s.1)
    . next c hc => exact .same (sameRegister_set hc (Console.id_operate c s.2 op))
  | stopAll => exact .same (sameRegister_stopAll s.1 s.2)
  | removeFinished => exact .prune
  | _ => exact .same (.refl s.1)

section Run

variable {l l' : Lobby} {s : Lobby × Mailroom} {id : ConsoleId} {drawn : Option ConsoleId}

theorem Steps.limit (h : l.Steps drawn l') : l'.limit = l.limit := by
  cases h with
  | same hsame => exact hsame.limit
  | _ => rfl

/-- An operation returns the identifier of the console that it opens. -/
theorem Steps.counts (h : l.Steps drawn l') {n : Nat} (hn : l.Counts n)
    : (drawn = none ∧ l'.Counts n) ∨ (drawn = some ⟨IdSource.nth n⟩ ∧ l'.Counts (n + 1)) := by
  cases h with
  | same hsame => exact Or.inl ⟨rfl, hsame.sameNumbers.counts hn⟩
  | prune => exact Or.inl ⟨rfl, (sameNumbers_removeFinished l).counts hn⟩
  | create _ => exact Or.inr ⟨by rw [hn.1.next, hn.2], counts_opened hn _ _ _⟩

theorem Steps.size_le (h : l.Steps drawn l') {n : Nat} (hlimit : l.limit = some n)
    (hsize : l.size ≤ n) : l'.size ≤ n := by
  have hle : l.unfinished.length ≤ l.size := by
    unfold unfinished size
    apply List.length_filter_le
  cases h with
  | same hsame =>
    rw [size_eq, hsame.register, ← size_eq]
    exact hsize
  | prune =>
    unfold size
    rw [(prunes_removeFinished l).listed]
    omega
  | @create title romName romHash hroom =>
    have := hroom n hlimit
    have := size_opened_le l title romName romHash
    omega

/-- A console that was taken off the list is not found again under its number. -/
theorem Steps.unlisted (h : l.Steps drawn l') {n : Nat} (hn : l.Counts n)
    (hfew : n < 0x7fffffffffffffff) {k : Nat} (hk : k < n)
    (hgone : (⟨IdSource.nth k⟩, true) ∉ l.register) : (⟨IdSource.nth k⟩, true) ∉ l'.register := by
  cases h with
  | same hsame =>
    rw [hsame.register]
    exact hgone
  | prune => exact fun hmem => hgone (register_removeFinished hmem)
  | create _ =>
    intro hmem
    rcases register_opened hmem with heq | hmem
    . rw [hn.1.next, hn.2, ConsoleId.mk.injEq] at heq
      have := IdSource.nth_inj (by omega) (by omega) heq
      omega
    . exact hgone hmem

theorem limit_run (s : Lobby × Mailroom) (ops : List Operation)
    : (run s ops).1.limit = s.1.limit := by
  induction ops generalizing s with
  | nil => rfl
  | cons op ops ih => exact (ih (step s op)).trans (steps_step s op).limit

theorem size_run_le {n : Nat} (hlimit : s.1.limit = some n) (hsize : s.1.size ≤ n)
    (ops : List Operation) : (run s ops).1.size ≤ n := by
  induction ops generalizing s with
  | nil => exact hsize
  | cons op ops ih =>
    have hstep := steps_step s op
    exact ih (hstep.limit.trans hlimit) (hstep.size_le hlimit hsize)

/-- A run returns one number after the other, one for each console that it opens. -/
theorem returned_run {n : Nat} (hn : s.1.Counts n) (ops : List Operation)
    : IdSource.Drawn n ((returned s ops).map (·.value)) ∧
        (run s ops).1.Counts (n + (returned s ops).length) := by
  have hrun := drawn_answers step returned? (p := fun _ => true) (f := ConsoleId.value)
    (P := fun n s => s.1.Counts n) ?_ hn ops
  . rw [List.filter_true] at hrun
    exact hrun
  . intro n s op hn
    rcases (steps_step s op).counts hn with ⟨hnone, hcounts⟩ | ⟨hsome, hcounts⟩
    . exact Or.inl ⟨by simp [hnone], hcounts⟩
    . exact Or.inr ⟨_, hsome, rfl, rfl, hcounts⟩

theorem unlisted_run {n : Nat} (hn : s.1.Counts n) (ops : List Operation)
    (hfew : n + (returned s ops).length < 0x7fffffffffffffff) {k : Nat} (hk : k < n)
    (hgone : (⟨IdSource.nth k⟩, true) ∉ s.1.register)
    : (⟨IdSource.nth k⟩, true) ∉ (run s ops).1.register := by
  induction ops generalizing n s with
  | nil => exact hgone
  | cons op ops ih =>
    have hstep := steps_step s op
    have hreturned : returned s (op :: ops)
        = (returned? s op).toList ++ returned (step s op) ops := rfl
    rw [hreturned, List.length_append] at hfew
    have hgone := hstep.unlisted hn (by omega) hk hgone
    rcases hstep.counts hn with ⟨_, hcounts⟩ | ⟨hsome, hcounts⟩
    . exact ih hcounts (by omega) hk hgone
    . rw [hsome, Option.toList_some, List.length_singleton] at hfew
      exact ih hcounts (by omega) (by omega) hgone

end Run

theorem prunes_of_create_eq_none {l : Lobby} {title romName romHash : String}
    (h : (l.create title romName romHash).1 = none)
    : l.Prunes (l.create title romName romHash).2 := by
  rcases create_cases l title romName romHash with ⟨_, heq⟩ | ⟨_, heq⟩
  . rw [heq]
    exact prunes_removeFinished l
  . simp [heq] at h

theorem opens_of_create_eq_some {l : Lobby} (hn : l.Numbered)
    (hfew : l.consoles.length < 0x7fffffffffffffff) {title romName romHash : String}
    {id : ConsoleId} (h : (l.create title romName romHash).1 = some id)
    : l.Opens (l.create title romName romHash).2 { id, title, romName, romHash } := by
  rcases create_cases l title romName romHash with ⟨_, heq⟩ | ⟨_, heq⟩
  . simp [heq] at h
  . rw [heq, Option.some.injEq] at h
    rw [heq, ← h]
    exact opens_opened hn hfew title romName romHash

theorem isSome_create_iff (l : Lobby) (title romName romHash : String)
    : (l.create title romName romHash).1.isSome = true ↔
        ∀ n, l.limit = some n → l.unfinished.length < n := by
  rcases create_cases l title romName romHash with ⟨⟨n, hn, hle⟩, heq⟩ | ⟨hroom, heq⟩
  . rw [heq]
    constructor
    . simp
    . intro hroom
      have := hroom n hn
      omega
  . rw [heq]
    simpa using hroom

theorem finishedCount_add_size (l : Lobby) : l.finishedCount + l.removeFinished.size = l.size := by
  unfold finishedCount size
  rw [(prunes_removeFinished l).listed, unfinished]
  rw [← List.countP_eq_length_filter, ← List.countP_eq_length_filter,
    List.length_eq_countP_add_countP (fun c : Console => decide (c.status = .done))]
  simp

/--
A lobby keeps its limit. A console can be opened unless as many as the limit are not over, where those
that are over leave the list before. Their number is told, and nothing else changes. An identifier is
returned only once, and what left the list is not found again.
-/
theorem limit_kept (limit : Option Nat) (room : Mailroom) (ops later : List Operation)
    : let s : Lobby × Mailroom := (empty limit, room)
      let l := (run s ops).1
      (∀ n, limit = some n → l.size ≤ n) ∧
        (∀ title romName romHash,
          ((l.create title romName romHash).1.isSome = true ↔
            ∀ n, limit = some n → l.unfinished.length < n) ∧
          ((l.create title romName romHash).1 = none → l.Prunes (l.create title romName romHash).2) ∧
          ∀ id, (l.create title romName romHash).1 = some id →
            (returned s ops).length < 0x7fffffffffffffff →
              l.Opens (l.create title romName romHash).2 { id, title, romName, romHash }) ∧
        l.Prunes l.removeFinished ∧
        l.finishedCount + l.removeFinished.size = l.size ∧
        ((returned s (ops ++ later)).length < 0x7fffffffffffffff →
          (returned s (ops ++ later)).Nodup ∧
            ∀ id ∈ returned s ops, l.find? id = none →
              (run s (ops ++ later)).1.find? id = none) := by
  have hempty : (empty limit).Counts 0 := ⟨numbered_empty limit, rfl⟩
  rcases returned_run (s := (empty limit, room)) hempty ops with ⟨hdrawn, hcounts⟩
  have hdrawn' := (returned_run (s := (empty limit, room)) hempty (ops ++ later)).1
  rw [Nat.zero_add] at hcounts
  refine ⟨?_, ?_, prunes_removeFinished _, finishedCount_add_size _, ?_⟩
  . intro n hlimit
    exact size_run_le (s := (empty limit, room)) hlimit (Nat.zero_le n) ops
  . intro title romName romHash
    refine ⟨?_, prunes_of_create_eq_none, ?_⟩
    . rw [isSome_create_iff, limit_run]
      rfl
    . intro id hid hfew
      exact opens_of_create_eq_some hcounts.1 (hcounts.2 ▸ hfew) hid
  . intro hfew
    constructor
    . apply List.Nodup.of_map
      apply hdrawn'.nodup
      rw [List.length_map]
      omega
    . intro id hmem hgone
      rcases hdrawn.exists_nth (List.mem_map_of_mem hmem) with ⟨k, _, hk, heq⟩
      have heq : id = ⟨IdSource.nth k⟩ := by rw [← heq]
      rw [List.length_map, Nat.zero_add] at hk
      rw [returned_append, List.length_append] at hfew
      rw [find?_eq_none_iff, heq] at hgone
      rw [run_append, find?_eq_none_iff, heq]
      exact unlisted_run hcounts later hfew hk hgone

/-- The third console is refused, and comes in place of the first one after that was stopped. -/
def turnover : List Operation :=
  [.create "a" "" "", .create "b" "" "", .create "c" "" "", .operate 0 .stop, .create "c" "" ""]

def clearance : List Operation :=
  [.stopAll, .removeFinished, .create "d" "" ""]

theorem limit_kept_turnover
    : let s : Lobby × Mailroom := (empty (some 2), {})
      let l := (run s turnover).1
      let l' := (run s (turnover ++ clearance)).1
      returned s (turnover ++ clearance) = [⟨1⟩, ⟨2⟩, ⟨3⟩, ⟨4⟩] ∧
        l.size ≤ 2 ∧
        l.Prunes (l.create "d" "" "").2 ∧
        l.find? ⟨1⟩ = none ∧ l'.find? ⟨1⟩ = none ∧
        l'.Opens (l'.create "e" "" "").2 { id := ⟨5⟩, title := "e" } := by
  have hreturned : returned (empty (some 2), {}) (turnover ++ clearance) = [⟨1⟩, ⟨2⟩, ⟨3⟩, ⟨4⟩] := by
    decide +kernel
  have hrefused : ((run (empty (some 2), {}) turnover).1.create "d" "" "").1 = none := by
    decide +kernel
  have hopened : ((run (empty (some 2), {}) (turnover ++ clearance)).1.create "e" "" "").1
      = some ⟨5⟩ := by
    decide +kernel
  have hgone : (run (empty (some 2), {}) turnover).1.find? ⟨1⟩ = none := by decide +kernel
  have hmem : (⟨1⟩ : ConsoleId) ∈ returned (empty (some 2), {}) turnover := by decide +kernel
  rcases limit_kept (some 2) {} turnover clearance with ⟨hsize, hcreate, _, _, hids⟩
  rcases limit_kept (some 2) {} (turnover ++ clearance) [] with ⟨_, hreopen, _, _, _⟩
  refine ⟨hreturned, hsize 2 rfl, (hcreate "d" "" "").2.1 hrefused, hgone, ?_, ?_⟩
  . refine (hids ?_).2 ⟨1⟩ hmem hgone
    rw [hreturned]
    decide
  . apply (hreopen "e" "" "").2.2 ⟨5⟩ hopened
    rw [hreturned]
    decide

end Lobby
end PadRelay
