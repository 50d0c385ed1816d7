import PadRelay.Proofs.Server.FirstBinding
import PadRelay.Proofs.Server.Statuses

/-!
This module contains the theory of the list of consoles. A console that left the list never comes back,
and until the server is shut down no console that is over is on it.
-/

namespace PadRelay
namespace Lobby

/-- Whether the console at position `k` can be found and counts against the limit. -/
def isListed (l : Lobby) (k : Nat) : Bool :=
  (l.consoles[k]?).any (·.listed)

@[simp]
theorem isListed_set (l : Lobby) (k j : Nat) (c : Console)
    : (l.set k c).isListed j = l.isListed j := by
  unfold isListed
  rw [consoles_set, List.getElem?_modify]
  split <;> cases l.consoles[j]? <;> rfl

theorem listed_delistIf (e : LobbyEntry) (p : Console → Bool)
    : (e.delistIf p).listed = (e.listed && !p e.console) := by
  unfold LobbyEntry.delistIf
  split <;> simp_all

theorem isListed_removeFinished_iff {l : Lobby} {k : Nat}
    : l.removeFinished.isListed k = true ↔
        l.isListed k = true ∧ ∀ c, l.console? k = some c → c.status ≠ .done := by
  unfold isListed removeFinished console?
  dsimp
  rw [List.getElem?_map]
  cases l.consoles[k]? with
  | none => simp
  | some e => simp [listed_delistIf]

theorem lt_length_of_console? {l : Lobby} {k : Nat} {c : Console} (hc : l.console? k = some c)
    : k < l.consoles.length := by
  rcases console?_eq_some_iff.1 hc with ⟨e, he, _⟩
  exact (List.getElem?_eq_some_iff.1 he).1

theorem isListed_create {l : Lobby} {k : Nat} (hk : k < l.consoles.length)
    {title romName romHash : String}
    (h : (l.create title romName romHash).2.isListed k = true) : l.isListed k = true := by
  have hfinished : l.removeFinished.isListed k = true → l.isListed k = true := fun h =>
    (isListed_removeFinished_iff.1 h).1
  unfold create at h
  dsimp at h
  split at h
  . exact hfinished h
  . apply hfinished
    have hlen : k < l.removeFinished.consoles.length := by
      simpa [removeFinished] using hk
    unfold isListed at h ⊢
    dsimp at h
    rw [List.getElem?_append_left (by simpa using hlen), List.getElem?_map,
      List.getElem?_eq_getElem hlen] at h
    rw [List.getElem?_eq_getElem hlen]
    simp only [Option.map_some, Option.any_some, listed_delistIf, Bool.and_eq_true] at h ⊢
    exact h.1

theorem isListed_of_find? {l : Lobby} {id : ConsoleId} {k : Nat} (h : l.find? id = some k)
    : l.isListed k = true := by
  unfold find? at h
  rw [List.findIdx?_eq_some_iff_getElem] at h
  rcases h with ⟨hlt, hfound, _⟩
  simp only [Bool.and_eq_true] at hfound
  unfold isListed
  rw [List.getElem?_eq_getElem hlt]
  exact hfound.1

theorem isListed_of_lookup? {l : Lobby} {id : ConsoleId} {k : Nat} {c : Console}
    (h : l.lookup? id = some (k, c)) : l.isListed k = true := by
  unfold lookup? at h
  rw [Option.bind_eq_some_iff] at h
  rcases h with ⟨j, hfind, h⟩
  rw [Option.map_eq_some_iff] at h
  rcases h with ⟨_, _, heq⟩
  rw [Prod.mk.injEq] at heq
  rw [← heq.1]
  exact isListed_of_find? hfind

/-- A console that is not on the list does not count. -/
theorem size_eraseIdx {l : Lobby} {k : Nat} (h : l.isListed k = false)
    : l.size = ((l.consoles.eraseIdx k).filter (·.listed)).length := by
  unfold size listed
  rw [List.length_map]
  unfold isListed at h
  generalize l.consoles = entries at h
  induction entries generalizing k with
  | nil => rfl
  | cons e rest ih =>
    cases k with
    | zero =>
      rw [List.eraseIdx_cons_zero, List.filter_cons_of_neg (by simpa using h)]
    | succ k =>
      rw [List.getElem?_cons_succ] at h
      rw [List.eraseIdx_cons_succ, List.filter_cons, List.filter_cons]
      split
      . rw [List.length_cons, List.length_cons, ih h]
      . exact ih h

end Lobby

namespace Server

/-- The list of consoles is as it was, and so is whether the server is being shut down. -/
structure SameList (s s' : Server) : Prop where
  isListed : ∀ j, s'.lobby.isListed j = s.lobby.isListed j
  stopping : s'.stopping = s.stopping

section Listed

variable {s : Server} {k : Nat} {c c' : Console} {a : Act}

theorem SameList.refl (s : Server) : s.SameList s := ⟨fun _ => rfl, rfl⟩

theorem sameList_update (s : Server) (k : Nat) (r : Console × Mailroom) : s.SameList (s.update k r) :=
  ⟨fun j => Lobby.isListed_set s.lobby k j r.1, rfl⟩

/-- At most one of the consoles was changed, which kept its identifier. Both switches stand as they did. -/
structure SetsOne (s s' : Server) : Prop where
  lobby : s'.lobby = s.lobby ∨
    ∃ k c c' clientIds, s.lobby.console? k = some c ∧ c'.id = c.id ∧
      s'.lobby = { s.lobby.set k c' with clientIds }
  testMode : s'.testMode = s.testMode
  stopping : s'.stopping = s.stopping

theorem SetsOne.refl (s : Server) : s.SetsOne s := ⟨Or.inl rfl, rfl, rfl⟩

theorem setsOne_update (hc : s.lobby.console? k = some c) (hid : c'.id = c.id) (room : Mailroom)
    : s.SetsOne (s.update k (c', room)) :=
  ⟨Or.inr ⟨k, c, c', s.lobby.clientIds, hc, hid, rfl⟩, rfl, rfl⟩

theorem setsOne_closeStream (s : Server) (i : Nat) : s.SetsOne (s.closeStream i) := by
  unfold closeStream
  split
  . exact .refl s
  . next stream _ =>
    dsimp only
    split
    . next b _ =>
      split
      . exact ⟨Or.inl rfl, rfl, rfl⟩
      . next c hc =>
        have hset := setsOne_update hc (Console.id_streamClosed c b.clientId s.room) s.room
        exact ⟨hset.lobby, rfl, rfl⟩
    . split <;> exact ⟨Or.inl rfl, rfl, rfl⟩

theorem setsOne_perform (hcreate : ∀ title romName romHash, a ≠ .create title romName romHash)
    (hprune : a ≠ .prune) (hhalt : a ≠ .halt) : s.SetsOne (s.perform a) := by
  cases a with
  | create title romName romHash => exact absurd rfl (hcreate title romName romHash)
  | prune => exact absurd rfl hprune
  | halt => exact absurd rfl hhalt
  | plug k delay requested romHash =>
    cases hc : s.lobby.console? k with
    | none =>
      simp only [perform, hc]
      exact .refl s
    | some c =>
      rw [perform_plug hc]
      split
      . exact .refl s
      . next p hplug =>
        rcases Console.plug_eq_ok hplug with ⟨_, _, _, _, _, rfl⟩
        refine ⟨Or.inr ⟨k, c, _, _, hc, ?_, rfl⟩, rfl, rfl⟩
        rfl
  | start k =>
    unfold perform
    dsimp
    split
    . exact .refl s
    . next c hc =>
      split
      . exact .refl s
      . next r hr =>
        rcases start_eq_ok hr with ⟨_, _, rfl⟩
        exact setsOne_update hc (Console.id_broadcastStart c s.room) _
  | stop k =>
    unfold perform
    dsimp
    split
    . exact .refl s
    . next c hc => exact setsOne_update hc (Console.id_stop c s.room) _
  | reply i consoleId status =>
    unfold perform
    dsimp
    split
    . exact .refl s
    . unfold replyAnonymous
      split <;> exact ⟨Or.inl rfl, rfl, rfl⟩
  | bind i ready =>
    unfold perform
    dsimp
    split
    . exact .refl s
    . split
      . exact .refl s
      . next hbind =>
        rcases bind?_eq_ok hbind with ⟨c, _, _, hlookup, _, _, _, _, rfl⟩
        have hc := (Lobby.lookup?_eq_some hlookup).1
        refine ⟨Or.inr ⟨_, c, _, _, hc, ?_, rfl⟩, rfl, rfl⟩
        rfl
  | handle i e =>
    unfold perform
    dsimp
    split
    . exact .refl s
    . unfold dispatch
      split
      . exact .refl s
      . next c hc => exact setsOne_update hc (Console.id_handle c _ e s.room) _
  | close i => exact setsOne_closeStream s i
  | _ => exact ⟨Or.inl rfl, rfl, rfl⟩

theorem SetsOne.sameList {s' : Server} (h : s.SetsOne s') : s.SameList s' where
  isListed j := by
    rcases h.lobby with heq | ⟨k, _, c', _, _, _, heq⟩
    . rw [heq]
    . rw [heq]
      exact Lobby.isListed_set s.lobby k j c'
  stopping := h.stopping

theorem sameList_perform (hcreate : ∀ title romName romHash, a ≠ .create title romName romHash)
    (hprune : a ≠ .prune) (hhalt : a ≠ .halt) : s.SameList (s.perform a) :=
  (setsOne_perform hcreate hprune hhalt).sameList

theorem isListed_perform (hc : s.lobby.console? k = some c)
    (h : (s.perform a).lobby.isListed k = true) : s.lobby.isListed k = true := by
  cases a with
  | create title romName romHash => exact Lobby.isListed_create (Lobby.lt_length_of_console? hc) h
  | prune => exact (Lobby.isListed_removeFinished_iff.1 h).1
  | halt => exact h
  | _ =>
    rw [(sameList_perform (by simp) (by simp) (by simp)).isListed] at h
    exact h

theorem stopping_perform (hhalt : a ≠ .halt) : (s.perform a).stopping = s.stopping := by
  cases a with
  | halt => exact absurd rfl hhalt
  | create title romName romHash => rfl
  | prune => rfl
  | _ => exact (sameList_perform (by simp) (by simp) (by simp)).stopping

/-- A console is over because it was stopped or because a stream of one of its clients ended. -/
theorem Changes.done (hchanges : s.Changes k c a c') (hdone : c'.status = .done)
    : c.status = .done ∨ a = .stop k ∨ ∃ i id, a = .close i ∧ s.boundTo i = some ⟨k, id⟩ := by
  cases hchanges with
  | plug => exact Or.inl hdone
  | start => simp [Console.broadcastStart] at hdone
  | stop => exact Or.inr (Or.inl rfl)
  | bind => exact Or.inl hdone
  | handle =>
    rw [Console.status_handle] at hdone
    exact Or.inl hdone
  | @close i id hb => exact Or.inr (Or.inr ⟨i, id, rfl, hb⟩)

theorem console?_close {i : Nat} {id : ClientId} (hb : s.boundTo i = some ⟨k, id⟩)
    (hc : s.lobby.console? k = some c)
    : (s.perform (.close i)).lobby.console? k = some (c.streamClosed id s.room).1 := by
  rcases boundTo_eq_some_iff.1 hb with ⟨stream, hstream, hbinding⟩
  unfold perform
  dsimp
  rw [closeStream_eq hstream hbinding hc]
  exact Lobby.console?_set_self hc _

theorem acts_endStream_of_not_isOpen {i : Nat} (hopen : s.isOpen i = false)
    : s.acts (.endStream i) = [] := by
  rcases acts_endStream s i with hnil | ⟨hopen', _⟩
  . exact hnil
  . rw [hopen] at hopen'
    simp at hopen'

/-- A stream that ends prunes the list unless its console goes on. -/
theorem acts_endStream_of_isOpen {i : Nat} (hopen : s.isOpen i = true)
    : s.acts (.endStream i) = [.close i, .prune] ∨
        (s.acts (.endStream i) = [.close i] ∧
          ∀ k id c', s.boundTo i = some ⟨k, id⟩ →
            (s.perform (.close i)).lobby.console? k = some c' → c'.status ≠ .done) := by
  rcases isOpen_eq_true_iff.1 hopen with ⟨stream, hstream, hopen⟩
  simp only [acts, hstream, hopen]
  dsimp
  split
  . next hbinding =>
    right
    refine ⟨rfl, ?_⟩
    intro k id c' hb
    rcases boundTo_eq_some_iff.1 hb with ⟨stream', hstream', hb⟩
    rw [hstream, Option.some.injEq] at hstream'
    rw [← hstream', hbinding] at hb
    simp at hb
  . next b hbinding =>
    have hbound : s.boundTo i = some b := boundTo_eq_some_iff.2 ⟨stream, hstream, hbinding⟩
    cases hc : s.lobby.console? b.console with
    | none =>
      right
      refine ⟨rfl, ?_⟩
      intro k id c' hb hc'
      rw [hbound, Option.some.injEq] at hb
      rw [hb] at hc
      have := (console?_perform_of_none hc hc').1
      simp [this]
    | some c =>
      dsimp
      split
      . exact Or.inl rfl
      . next hgoes =>
        right
        refine ⟨rfl, ?_⟩
        intro k id c' hb hc'
        rw [hbound, Option.some.injEq] at hb
        subst hb
        rw [console?_close hbound hc, Option.some.injEq] at hc'
        rw [← hc']
        exact hgoes

/-- Until the server is shut down no console that is over is on the list. -/
def Tidy (s : Server) : Prop :=
  s.stopping = false → ∀ k c, s.lobby.console? k = some c → c.status = .done →
    s.lobby.isListed k = false

theorem tidy_prune (s : Server) : (s.perform .prune).Tidy := by
  intro _ k c hc hdone
  cases hlisted : (s.perform .prune).lobby.isListed k with
  | false => rfl
  | true =>
    have hc' : s.lobby.console? k = some c := by
      rw [← Lobby.console?_removeFinished]
      exact hc
    exact absurd hdone ((Lobby.isListed_removeFinished_iff.1 hlisted).2 c hc')

/-- A list stays tidy unless the act leaves a console behind that is over only now. -/
theorem Tidy.perform (ht : s.Tidy) (hhalt : a ≠ .halt)
    (hover : ∀ k c c', s.lobby.console? k = some c → s.Changes k c a c' → c'.status = .done →
      (s.perform a).lobby.console? k = some c' → c.status = .done)
    : (s.perform a).Tidy := by
  intro hgoes k c' hc' hdone
  rw [stopping_perform hhalt] at hgoes
  cases hc : s.lobby.console? k with
  | none =>
    have := (console?_perform_of_none hc hc').1
    rw [this] at hdone
    simp at hdone
  | some c =>
    rcases console?_perform_of_some hc a with ⟨c'', hc'', heq⟩
    rw [hc', Option.some.injEq] at hc''
    subst hc''
    have hwas : c.status = .done := by
      rcases heq with rfl | hchanges
      . exact hdone
      . exact hover k c c' hc hchanges hdone hc'
    have hlisted := ht hgoes k c hc hwas
    cases hlisted' : (s.perform a).lobby.isListed k with
    | false => rfl
    | true =>
      rw [isListed_perform hc hlisted'] at hlisted
      simp at hlisted

theorem Tidy.performAll (ht : s.Tidy) {acts : List Act} (hhalt : .halt ∉ acts)
    (hstop : ∀ k, .stop k ∉ acts) (hclose : ∀ i, .close i ∉ acts) : (s.performAll acts).Tidy := by
  induction acts generalizing s with
  | nil => exact ht
  | cons a acts ih =>
    apply ih
    . apply ht.perform
      . intro heq
        exact hhalt (heq ▸ List.mem_cons_self)
      . intro k c c' _ hchanges hdone _
        rcases hchanges.done hdone with hwas | rfl | ⟨i, _, rfl, _⟩
        . exact hwas
        . exact absurd List.mem_cons_self (hstop k)
        . exact absurd List.mem_cons_self (hclose i)
    . exact fun hmem => hhalt (List.mem_cons_of_mem _ hmem)
    . exact fun k hmem => hstop k (List.mem_cons_of_mem _ hmem)
    . exact fun i hmem => hclose i (List.mem_cons_of_mem _ hmem)

theorem tidy_step (ht : s.Tidy) (op : Operation) : (s.step op).Tidy := by
  rw [step_eq_performAll]
  cases op with
  | shutDown request =>
    unfold acts
    dsimp
    split
    . rw [performAll_append]
      intro hgoes
      simp [Server.perform] at hgoes
    . exact ht
  | endStream i =>
    cases hopen : s.isOpen i with
    | false =>
      rw [acts_endStream_of_not_isOpen hopen]
      exact ht
    | true =>
      rcases acts_endStream_of_isOpen hopen with hacts | ⟨hacts, hgoes⟩
      . rw [hacts]
        apply tidy_prune
      . rw [hacts, performAll_cons, performAll_nil]
        apply ht.perform
        . simp
        . intro k c c' _ hchanges hdone hc'
          rcases hchanges.done hdone with hwas | heq | ⟨j, id, heq, hb⟩
          . exact hwas
          . simp at heq
          . rw [Act.close.injEq] at heq
            rw [← heq] at hb
            exact absurd hdone (hgoes k id c' hb hc')
  | _ =>
    apply ht.performAll
    all_goals
      unfold acts
      dsimp
      repeat' split
      all_goals simp

end Listed

theorem tidy_run (testMode : Bool) (limit : Option Nat) (ops : List Operation)
    : ((initial testMode limit).run ops).Tidy := by
  have hinitial : (initial testMode limit).Tidy := by
    intro _ k c hc
    simp [initial, Lobby.console?] at hc
  generalize initial testMode limit = s at hinitial
  induction ops generalizing s with
  | nil => exact hinitial
  | cons op ops ih => exact ih (s.step op) (tidy_step hinitial op)

end Server
end PadRelay
