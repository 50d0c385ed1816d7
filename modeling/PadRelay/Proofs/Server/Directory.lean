import PadRelay.Proofs.Server.Numbering

/-!
This module contains the proof that a console which is on the list is found under its identifier. Of two
consoles with the same identifier, which takes a counter that has wrapped around, only the later one is
on the list.
-/

namespace PadRelay
namespace Lobby

/-- No two consoles on the list have the same identifier. -/
def Unambiguous (l : Lobby) : Prop :=
  ∀ j k c c', l.isListed j = true → l.isListed k = true → l.console? j = some c →
    l.console? k = some c' → c.id = c'.id → j = k

/-- Before the counter of consoles wraps around no two consoles have the same identifier. -/
theorem Numbered.eq_of_id {l : Lobby} (hn : l.Numbered)
    (hfew : l.consoles.length ≤ 0x10000000000000000) {j k : Nat} {c c' : Console}
    (hc : l.console? j = some c) (hc' : l.console? k = some c') (heq : c.id = c'.id) : j = k := by
  have hj := lt_length_of_console? hc
  have hk := lt_length_of_console? hc'
  rw [hn.ids j c hc, hn.ids k c' hc', ConsoleId.mk.injEq] at heq
  exact IdSource.nth_inj (by omega) (by omega) heq

theorem console?_of_isListed {l : Lobby} {k : Nat} (h : l.isListed k = true)
    : ∃ c, l.console? k = some c := by
  unfold isListed at h
  rw [Option.any_eq_true] at h
  rcases h with ⟨e, he, _⟩
  exact ⟨e.console, console?_eq_some_iff.2 ⟨e, he, rfl⟩⟩

theorem mem_register_of_isListed {l : Lobby} {k : Nat} {c : Console}
    (hlisted : l.isListed k = true) (hc : l.console? k = some c) : (c.id, true) ∈ l.register := by
  rcases console?_eq_some_iff.1 hc with ⟨e, he, rfl⟩
  unfold isListed at hlisted
  rw [he, Option.any_some] at hlisted
  exact List.mem_map.2 ⟨e, List.mem_of_getElem? he, by rw [hlisted]⟩

theorem Unambiguous.lookup? {l : Lobby} (h : l.Unambiguous) {k : Nat} {c : Console}
    (hlisted : l.isListed k = true) (hc : l.console? k = some c)
    : l.lookup? c.id = some (k, c) := by
  cases hfind : l.find? c.id with
  | none => exact absurd (mem_register_of_isListed hlisted hc) (find?_eq_none_iff.1 hfind)
  | some j =>
    rcases console?_of_isListed (isListed_of_find? hfind) with ⟨c', hc'⟩
    have hlookup : l.lookup? c.id = some (j, c') := by
      unfold Lobby.lookup?
      rw [hfind, Option.bind_some, hc', Option.map_some]
    have hid := (lookup?_eq_some hlookup).2
    have heq := h j k c' c (isListed_of_find? hfind) hlisted hc' hc hid
    subst heq
    rw [hc, Option.some.injEq] at hc'
    rw [hlookup, hc']

/-- What is on the list was on it before. -/
theorem Unambiguous.of_isListed {l l' : Lobby} (h : l.Unambiguous)
    (hlisted : ∀ k, l'.isListed k = true → l.isListed k = true)
    (hids : ∀ k c', l'.isListed k = true → l'.console? k = some c' →
      ∃ c, l.console? k = some c ∧ c'.id = c.id) : l'.Unambiguous := by
  intro j k c c' hj hk hc hc' heq
  rcases hids j c hj hc with ⟨d, hd, hid⟩
  rcases hids k c' hk hc' with ⟨d', hd', hid'⟩
  exact h j k d d' (hlisted j hj) (hlisted k hk) hd hd' (by rw [← hid, ← hid', heq])

theorem Unambiguous.removeFinished {l : Lobby} (h : l.Unambiguous)
    : l.removeFinished.Unambiguous := by
  apply h.of_isListed
  . exact fun k hk => (isListed_removeFinished_iff.1 hk).1
  . intro k c hk hc
    rw [console?_removeFinished] at hc
    exact ⟨c, hc, rfl⟩

/-- Opening a console takes those off the list that have its identifier. -/
theorem isListed_opened {l : Lobby} {title romName romHash : String} {k : Nat} {c : Console}
    (hc : l.console? k = some c) (h : (l.opened title romName romHash).isListed k = true)
    : l.isListed k = true ∧ c.id ≠ ⟨l.consoleIds.next⟩ := by
  rcases console?_eq_some_iff.1 hc with ⟨e, he, rfl⟩
  have hlt := lt_length_of_console? hc
  unfold isListed opened removeFinished at h
  dsimp at h
  rw [List.getElem?_append_left (by simpa using hlt), List.getElem?_map, List.getElem?_map, he] at h
  simp only [Option.map_some, Option.any_some, listed_delistIf, console_delistIf, Bool.and_eq_true,
    Bool.not_eq_true', decide_eq_false_iff_not] at h
  unfold isListed
  rw [he, Option.any_some]
  exact ⟨h.1.1, h.2⟩

theorem Unambiguous.opened {l : Lobby} (h : l.Unambiguous) (title romName romHash : String)
    : (l.opened title romName romHash).Unambiguous := by
  intro j k c c' hj hk hc hc' heq
  rw [console?_opened] at hc hc'
  split at hc
  . next hnew =>
    split at hc'
    . next hnew' => rw [hnew, hnew']
    . rw [Option.some.injEq] at hc
      rw [← hc] at heq
      exact absurd heq.symm (isListed_opened hc' hk).2
  . split at hc'
    . rw [Option.some.injEq] at hc'
      rw [← hc'] at heq
      exact absurd heq (isListed_opened hc hj).2
    . exact h j k c c' (isListed_opened hc hj).1 (isListed_opened hc' hk).1 hc hc' heq

theorem Unambiguous.create {l : Lobby} (h : l.Unambiguous) (title romName romHash : String)
    : (l.create title romName romHash).2.Unambiguous := by
  rcases create_cases l title romName romHash with ⟨_, heq⟩ | ⟨_, heq⟩
  . rw [heq]
    exact h.removeFinished
  . rw [heq]
    exact h.opened title romName romHash

end Lobby

namespace Server

theorem unambiguous_of_isListed {s : Server} {a : Act} (h : s.lobby.Unambiguous)
    (hlisted : ∀ k, (s.perform a).lobby.isListed k = s.lobby.isListed k)
    : (s.perform a).lobby.Unambiguous := by
  apply h.of_isListed
  . intro k hk
    rw [← hlisted, hk]
  . intro k c' hk hc'
    rw [hlisted] at hk
    rcases Lobby.console?_of_isListed hk with ⟨c, hc⟩
    rcases console?_perform_of_some hc a with ⟨c'', hc'', heq⟩
    rw [hc', Option.some.injEq] at hc''
    subst hc''
    rcases heq with rfl | hchanges
    . exact ⟨c', hc, rfl⟩
    . exact ⟨c, hc, hchanges.id_eq⟩

theorem unambiguous_perform {s : Server} (h : s.lobby.Unambiguous) (a : Act)
    : (s.perform a).lobby.Unambiguous := by
  cases a with
  | create title romName romHash => exact h.create title romName romHash
  | prune => exact h.removeFinished
  | halt => exact h
  | _ =>
    apply unambiguous_of_isListed h
    exact (sameList_perform (by simp) (by simp) (by simp)).isListed

theorem unambiguous_run (testMode : Bool) (limit : Option Nat) (ops : List Operation)
    : ((initial testMode limit).run ops).lobby.Unambiguous := by
  apply run_induction (P := fun s => s.lobby.Unambiguous) (fun s a h => unambiguous_perform h a)
  intro j k c c' hj
  simp [initial, Lobby.isListed] at hj

theorem numbered_run (testMode : Bool) (limit : Option Nat) (ops : List Operation)
    : ((initial testMode limit).run ops).lobby.Numbered := by
  have hinitial : (initial testMode limit).lobby.Numbered := Lobby.numbered_empty limit
  generalize initial testMode limit = s at hinitial
  induction ops generalizing s with
  | nil => exact hinitial
  | cons op ops ih =>
    apply ih
    rcases consoleAnswer?_cases s op with ⟨_, hsame⟩ | ⟨_, _, _, _, _, _, _, hlobby⟩
    . exact hsame.numbered hinitial
    . rw [hlobby]
      exact Lobby.numbered_opened hinitial _ _ _

end Server
end PadRelay
