import Mathlib.Data.List.Nodup
import PadRelay.Ids

/-!
This module contains the theory of the counter that identifiers are drawn from: what it hands out one
after the other, that nothing is handed out twice as long as it does not wrap around, and which numbers
the answers of a run carry.
-/

namespace PadRelay
namespace IdSource

/-- The number that is drawn after `n` others. -/
def nth (n : Nat) : Int64 :=
  Int64.ofNat (n + 1)

theorem nth_add_one (n : Nat) : nth (n + 1) = nth n + 1 := by
  unfold nth
  rw [Int64.ofNat_add]
  rfl

theorem toInt_nth {n : Nat} (h : n < 0x7fffffffffffffff) : (nth n).toInt = n + 1 := by
  unfold nth
  rw [Int64.toInt_ofNat_of_lt (by omega)]
  rfl

/-- No number is drawn twice before all of them were drawn. -/
theorem nth_inj {m n : Nat} (hm : m < 0x10000000000000000) (hn : n < 0x10000000000000000)
    (h : nth m = nth n) : m = n := by
  have hnat := congrArg BitVec.toNat (Int64.toBitVec_inj.2 h)
  unfold nth at hnat
  rw [Int64.toBitVec_ofNat', Int64.toBitVec_ofNat', BitVec.toNat_ofNat, BitVec.toNat_ofNat] at hnat
  omega

/-- These numbers are drawn one after the other, the first of them after `n` others. -/
def Drawn (n : Nat) (ids : List Int64) : Prop :=
  ids = (List.range' n ids.length).map nth

variable {n : Nat} {ids : List Int64}

theorem drawn_nil (n : Nat) : Drawn n [] := rfl

theorem Drawn.cons (h : Drawn (n + 1) ids) : Drawn n (nth n :: ids) := by
  unfold Drawn at h ⊢
  rw [List.length_cons, List.range'_succ, List.map_cons, ← h]

theorem Drawn.eq_nth (h : Drawn n ids) {k : Nat} {id : Int64} (hk : ids[k]? = some id)
    : id = nth (n + k) := by
  have hlt := (List.getElem?_eq_some_iff.1 hk).1
  rw [h, List.getElem?_map, List.getElem?_range' hlt, Option.map_some, Option.some.injEq] at hk
  rw [← hk, Nat.one_mul]

theorem Drawn.exists_nth (h : Drawn n ids) {id : Int64} (hmem : id ∈ ids)
    : ∃ k, n ≤ k ∧ k < n + ids.length ∧ id = nth k := by
  rw [h, List.mem_map] at hmem
  rcases hmem with ⟨k, hk, heq⟩
  rw [List.mem_range'_1] at hk
  exact ⟨k, hk.1, hk.2, heq.symm⟩

theorem Drawn.nodup (h : Drawn n ids) (hfew : n + ids.length ≤ 0x7fffffffffffffff) : ids.Nodup := by
  rw [h]
  apply List.Nodup.map_on
  . intro i hi j hj heq
    rw [List.mem_range'_1] at hi hj
    exact nth_inj (by omega) (by omega) heq
  . exact List.nodup_range'

theorem Drawn.pos (h : Drawn n ids) (hfew : n + ids.length ≤ 0x7fffffffffffffff) {id : Int64}
    (hmem : id ∈ ids) : 0 < id := by
  rcases h.exists_nth hmem with ⟨k, _, hk, rfl⟩
  rw [Int64.lt_iff_toInt_lt, Int64.toInt_zero, toInt_nth (by omega)]
  omega

end IdSource

section Answers

variable {σ ω α : Type}

/-- What the operations of a run are answered, as far as they are answered anything. -/
def answers (next : σ → ω → σ) (answer? : σ → ω → Option α) (s : σ) : List ω → List α
  | [] => []
  | op :: ops => (answer? s op).toList ++ answers next answer? (next s op) ops

variable {next : σ → ω → σ} {answer? : σ → ω → Option α} {s : σ} {ops : List ω}

theorem answers_append (s : σ) (ops ops' : List ω)
    : answers next answer? s (ops ++ ops')
        =
      answers next answer? s ops ++ answers next answer? (ops.foldl next s) ops' := by
  induction ops generalizing s with
  | nil => rfl
  | cons op ops ih => simp [answers, ih]

theorem answered_of_mem {x : α} (hx : x ∈ answers next answer? s ops)
    : ∃ s op, answer? s op = some x := by
  induction ops generalizing s with
  | nil => simp [answers] at hx
  | cons op ops ih =>
    unfold answers at hx
    rw [List.mem_append, Option.mem_toList] at hx
    cases hx with
    | inl hx => exact ⟨s, op, hx⟩
    | inr hx => exact ih hx

/--
A run draws numbers one after the other. `P n` is what holds after `n` of them were drawn. Every operation
keeps it or draws the next number, which is then part of an answer that `p` holds of.
-/
theorem drawn_answers (next : σ → ω → σ) (answer? : σ → ω → Option α) {p : α → Bool}
    {f : α → Int64} {P : Nat → σ → Prop}
    (hstep : ∀ n s op, P n s →
      ((∀ x, answer? s op = some x → p x = false) ∧ P n (next s op)) ∨
      ∃ x, answer? s op = some x ∧ p x = true ∧ f x = IdSource.nth n ∧ P (n + 1) (next s op))
    {n : Nat} (h : P n s) (ops : List ω)
    : let drawn := (answers next answer? s ops).filter p
      IdSource.Drawn n (drawn.map f) ∧ P (n + drawn.length) (ops.foldl next s) := by
  induction ops generalizing n s with
  | nil => exact ⟨IdSource.drawn_nil n, h⟩
  | cons op ops ih =>
    unfold answers
    dsimp at ih ⊢
    rw [List.filter_append, List.map_append, List.length_append]
    rcases hstep n s op h with ⟨hnone, hsame⟩ | ⟨x, hx, hp, hf, hnext⟩
    . have hnil : (answer? s op).toList.filter p = [] := by
        rw [List.filter_eq_nil_iff]
        intro x hx
        rw [Option.mem_toList] at hx
        simp [hnone x hx]
      rw [hnil, List.map_nil, List.nil_append, List.length_nil, Nat.zero_add]
      exact ih hsame
    . rcases ih hnext with ⟨hdrawn, hkept⟩
      rw [hx, Option.toList_some, List.filter_cons, if_pos hp, List.filter_nil, List.map_singleton,
        List.length_singleton, hf, ← Nat.add_assoc]
      exact ⟨hdrawn.cons, hkept⟩

end Answers

end PadRelay
