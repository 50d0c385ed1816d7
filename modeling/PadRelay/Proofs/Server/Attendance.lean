import PadRelay.Proofs.Server.Players
import PadRelay.Proofs.Server.Register

/-!
This module contains the proof that consoles do not leak. To every console that is running belongs a
stream that has not ended, and a console that was started leaves the list at the latest when the last
one of its streams ends.
-/

namespace PadRelay
namespace Console

theorem status_streamClosed_self {c : Console} (hsep : c.Separate) {id : ClientId} {room : Mailroom}
    {m : Member} (hm : (c.streamClosed id room).1.members.get? id = some m) : m.status = .done := by
  rw [(serves_streamClosed hsep id room).member, Option.map_eq_some_iff] at hm
  rcases hm with ⟨m', _, rfl⟩
  simp [closing, Member.undergo]

theorem hasReady_of_allReady {c : Console} (h : c.allReady = true)
    : ∃ id m, c.members.get? id = some m ∧ m.status = .ready := by
  rcases hasPlayer_iff.1 (hasPlayer_of_allReady h) with ⟨id, m, hm, _⟩
  exact ⟨id, m, hm, ready_of_allReady h hm⟩

theorem powered_of_ne {c : Console} (hstarted : c.status ≠ .created) (hgoes : c.status ≠ .done)
    : c.status = .powered := by
  cases hs : c.status with
  | created => exact absurd hs hstarted
  | powered => rfl
  | done => exact absurd hs hgoes

end Console

namespace Server

/-- A stream that has not ended belongs to a client of the console at position `k`. -/
def Attended (s : Server) (k : Nat) : Prop :=
  ∃ i id, s.boundTo i = some ⟨k, id⟩ ∧ s.isOpen i = true

/-- The console at position `k` was started, and it is on the list only while it is attended. -/
def Vacates (s : Server) (k : Nat) : Prop :=
  ∃ c, s.lobby.console? k = some c ∧ c.status ≠ .created ∧
    (s.lobby.isListed k = true → s.Attended k)

/-- Whether an act handles nothing that arrived on a stream that has ended. -/
def handlesOpen (s : Server) : Act → Bool
  | .handle i _ => s.isOpen i
  | _ => true

/-- Who is ready or plays has a stream that has not ended, and so has a console that is running. -/
structure Manned (s : Server) : Prop where
  active : ∀ k c id m, s.lobby.console? k = some c → c.members.get? id = some m →
    m.status = .ready ∨ m.status = .playing → ∃ i, s.boundTo i = some ⟨k, id⟩ ∧ s.isOpen i = true
  running : ∀ k c, s.lobby.console? k = some c → c.status = .powered → s.Attended k

section Open

variable {s : Server} {i : Nat} {a : Act}

theorem isOpen_perform_of_ne (hopen : s.isOpen i = true) (hne : a ≠ .close i)
    : (s.perform a).isOpen i = true := by
  rw [isOpen_eq_true_iff] at hopen ⊢
  rcases hopen with ⟨stream, hstream, hopen⟩
  cases a with
  | openStream =>
    have hlt := (List.getElem?_eq_some_iff.1 hstream).1
    refine ⟨stream, ?_, hopen⟩
    apply (getElem?_streams_openStream s i).trans
    rw [if_neg (by omega), hstream]
  | bind j ready =>
    unfold perform
    dsimp
    split
    . exact ⟨stream, hstream, hopen⟩
    . next x hj =>
      split
      . exact ⟨stream, hstream, hopen⟩
      . next hbind =>
        rcases bind?_eq_ok hbind with ⟨_, _, _, _, _, _, _, _, rfl⟩
        dsimp
        rw [getElem?_setStream hj]
        split
        . next heq =>
          rw [heq, hstream, Option.some.injEq] at hj
          exact ⟨_, rfl, hj ▸ hopen⟩
        . exact ⟨stream, hstream, hopen⟩
  | close j =>
    refine ⟨stream, ?_, hopen⟩
    unfold perform
    dsimp
    cases hj : s.streams[j]? with
    | none =>
      simp only [closeStream, hj]
      exact hstream
    | some x =>
      rw [streams_closeStream hj, getElem?_setStream hj, if_neg, hstream]
      intro heq
      exact hne (heq ▸ rfl)
  | _ =>
    rw [streams_perform]
    . exact ⟨stream, hstream, hopen⟩
    all_goals simp

theorem every_handlesOpen_acts (s : Server) (op : Operation)
    : every handlesOpen s (s.acts op) = true := by
  cases op with
  | receive i e =>
    unfold acts
    dsimp
    split
    . rfl
    . next stream hstream =>
      split
      . rfl
      . next hopen =>
        have hopen : s.isOpen i = true := by
          rw [isOpen_eq_true_iff]
          exact ⟨stream, hstream, by simpa using hopen⟩
        split
        . simp [every, handlesOpen, hopen]
        . split
          . rfl
          . split
            . rfl
            . simp [every, handlesOpen, isOpen_perform_of_ne hopen]
  | _ =>
    apply every_of_forall
    intro a ha s
    cases a with
    | handle j e =>
      unfold acts at ha
      dsimp at ha
      repeat' split at ha
      all_goals simp at ha
    | _ => rfl

end Open

section Manned

variable {s : Server} {k : Nat} {a : Act}

theorem Attended.perform (h : s.Consistent) (hattended : s.Attended k) (hclose : ∀ i, a ≠ .close i)
    : (s.perform a).Attended k := by
  rcases hattended with ⟨i, id, hb, hopen⟩
  exact ⟨i, id, boundTo_perform h hb a, isOpen_perform_of_ne hopen (hclose i)⟩

theorem Manned.active_perform (hmanned : s.Manned) (h : s.Consistent)
    (hhandles : s.handlesOpen a = true) {c' : Console} {id : ClientId} {m' : Member}
    (hc' : (s.perform a).lobby.console? k = some c') (hm' : c'.members.get? id = some m')
    (hstatus : m'.status = .ready ∨ m'.status = .playing)
    : ∃ i, (s.perform a).boundTo i = some ⟨k, id⟩ ∧ (s.perform a).isOpen i = true := by
  have hne : m'.status ≠ .created ∧ m'.status ≠ .done := by
    rcases hstatus with hstatus | hstatus <;> simp [hstatus]
  by_cases hclose : ∃ i, a = .close i ∧ s.boundTo i = some ⟨k, id⟩
  . -- Whoever loses its stream is done.
    rcases hclose with ⟨i, rfl, hb⟩
    rcases h.bound i _ hb with ⟨c, _, hc, _⟩
    rw [console?_close hb hc, Option.some.injEq] at hc'
    subst hc'
    exact absurd (Console.status_streamClosed_self (h.separate hc) hm') hne.2
  . have hwas : ∃ i, s.boundTo i = some ⟨k, id⟩ ∧ s.isOpen i = true := by
      rcases turns_perform h hc' hm' with ⟨hcreated, _⟩ | ⟨c, m, hc, hm, ht⟩
      . exact absurd hcreated hne.1
      . cases ht with
        | keeps hsame =>
          rw [hsame] at hstatus
          exact hmanned.active k c id m hc hm hstatus
        | leaves hdone => exact absurd hdone hne.2
        | joins hcreated => exact absurd hcreated hne.1
        | binds _ _ _ hsame =>
          rw [hsame] at hstatus
          exact hmanned.active k c id m hc hm hstatus
        | @readies i e _ hb => exact ⟨i, hb, hhandles⟩
        | plays hready => exact hmanned.active k c id m hc hm (Or.inl hready)
    rcases hwas with ⟨i, hb, hopen⟩
    refine ⟨i, boundTo_perform h hb a, isOpen_perform_of_ne hopen ?_⟩
    intro heq
    exact hclose ⟨i, heq, hb⟩

theorem Changes.powered {c c' : Console} (hchanges : s.Changes k c a c')
    (hpowered : c'.status = .powered) : c.status = .powered ∨ c.allReady = true := by
  cases hchanges with
  | plug => exact Or.inl hpowered
  | start _ hready => exact Or.inr hready
  | stop => simp [Console.stop] at hpowered
  | bind => exact Or.inl hpowered
  | handle =>
    rw [Console.status_handle] at hpowered
    exact Or.inl hpowered
  | @close i leaver =>
    rcases Console.status_streamClosed c leaver s.room with hsame | ⟨hwas, _⟩
    . rw [hsame] at hpowered
      exact Or.inl hpowered
    . exact Or.inl hwas

theorem Manned.attended (hmanned : s.Manned) {c : Console} (hc : s.lobby.console? k = some c)
    (hstatus : c.status = .powered ∨ c.allReady = true) : s.Attended k := by
  rcases hstatus with hpowered | hready
  . exact hmanned.running k c hc hpowered
  . rcases Console.hasReady_of_allReady hready with ⟨id, m, hm, hready⟩
    rcases hmanned.active k c id m hc hm (Or.inl hready) with ⟨i, hb, hopen⟩
    exact ⟨i, id, hb, hopen⟩

theorem Manned.perform (hmanned : s.Manned) (h : s.Consistent)
    (hin : ∀ k c, s.lobby.console? k = some c → c.InStep) (hhandles : s.handlesOpen a = true)
    : (s.perform a).Manned where
  active k c' id m' hc' hm' hstatus := hmanned.active_perform h hhandles hc' hm' hstatus
  running k c' hc' hpowered := by
    cases hc : s.lobby.console? k with
    | none =>
      have := (console?_perform_of_none hc hc').1
      rw [this] at hpowered
      simp at hpowered
    | some c =>
      have hwas : c.status = .powered ∨ c.allReady = true := by
        rcases console?_perform_of_some hc a with ⟨c'', hc'', heq⟩
        rw [hc', Option.some.injEq] at hc''
        subst hc''
        rcases heq with rfl | hchanges
        . exact Or.inl hpowered
        . exact hchanges.powered hpowered
      rcases hmanned.attended hc hwas with ⟨i, id, hb, hopen⟩
      by_cases hclose : a = .close i
      . -- The stream has ended and the console goes on, so there is somebody else who plays.
        subst hclose
        have heq := console?_close hb hc
        rw [hc', Option.some.injEq] at heq
        have hplayer := Console.hasPlayer_streamClosed (heq ▸ hpowered)
        rw [← heq, Console.hasPlayer_iff] at hplayer
        rcases hplayer with ⟨id', m, hm, hplays⟩
        have hstarted := (inStep_perform h hin hc').started (by simp [hpowered]) id' m hm
        rcases hmanned.active_perform h hhandles hc' hm (by cases hs : m.status <;> simp_all) with
          ⟨j, hb', hopen'⟩
        exact ⟨j, id', hb', hopen'⟩
      . exact ⟨i, id, boundTo_perform h hb a, isOpen_perform_of_ne hopen hclose⟩

theorem Manned.performAll (hmanned : s.Manned) (h : s.Consistent)
    (hin : ∀ k c, s.lobby.console? k = some c → c.InStep) {acts : List Act}
    (hacts : every handlesOpen s acts = true) : (s.performAll acts).Manned := by
  induction acts generalizing s with
  | nil => exact hmanned
  | cons a acts ih =>
    simp only [every, Bool.and_eq_true] at hacts
    apply ih (hmanned.perform h hin hacts.1) (consistent_perform h a) _ hacts.2
    exact fun k c hc => inStep_perform h hin hc

theorem manned_run (testMode : Bool) (limit : Option Nat) (ops : List Operation)
    : ((initial testMode limit).run ops).Manned := by
  have hnone : ∀ k c, (initial testMode limit).lobby.console? k ≠ some c := by
    intro k c hc
    simp [initial, Lobby.console?] at hc
  have hinitial : (initial testMode limit).Manned :=
    ⟨fun k c _ _ hc => absurd hc (hnone k c), fun k c hc => absurd hc (hnone k c)⟩
  rw [run_eq_performAll]
  apply hinitial.performAll (consistent_initial testMode limit)
  . exact fun k c hc => absurd hc (hnone k c)
  . exact every_history every_handlesOpen_acts _ ops

end Manned

section Vacates

variable {s : Server} {k : Nat} {a : Act}

theorem Vacates.perform (hv : s.Vacates k)
    (hclose : s.Attended k → (s.perform a).Attended k) : (s.perform a).Vacates k := by
  rcases hv with ⟨c, hc, hstarted, hattended⟩
  rcases console?_perform_of_started hc hstarted a with ⟨c', hc', hstarted'⟩
  refine ⟨c', hc', hstarted', ?_⟩
  intro hlisted
  exact hclose (hattended (isListed_perform hc hlisted))

theorem Vacates.performAll (hv : s.Vacates k) (h : s.Consistent) {acts : List Act}
    (hclose : ∀ i, .close i ∉ acts) : (s.performAll acts).Vacates k := by
  induction acts generalizing s with
  | nil => exact hv
  | cons a acts ih =>
    apply ih _ (consistent_perform h a)
    . exact fun i hmem => hclose i (List.mem_cons_of_mem _ hmem)
    . apply hv.perform
      intro hattended
      apply hattended.perform h
      exact fun i heq => hclose i (heq ▸ List.mem_cons_self)

theorem Vacates.endStream (hv : s.Vacates k) (h : s.Consistent) (hmanned : s.Manned)
    (hin : ∀ k c, s.lobby.console? k = some c → c.InStep) (i : Nat)
    : (s.performAll (s.acts (.endStream i))).Vacates k := by
  cases hopen : s.isOpen i with
  | false =>
    rw [acts_endStream_of_not_isOpen hopen]
    exact hv
  | true =>
    have hmanned' := hmanned.performAll h hin (every_handlesOpen_acts s (.endStream i))
    rcases hv with ⟨c, hc, hstarted, hattended⟩
    rcases console?_perform_of_started hc hstarted (.close i) with ⟨c', hc', hstarted'⟩
    rcases acts_endStream_of_isOpen hopen with hacts | ⟨hacts, hgoes⟩
    . rw [hacts, performAll_cons, performAll_cons, performAll_nil] at hmanned' ⊢
      have hc'' := (Lobby.console?_removeFinished _ k).trans hc'
      refine ⟨c', hc'', hstarted', ?_⟩
      intro hlisted
      have hgoes := (Lobby.isListed_removeFinished_iff.1 hlisted).2 c' hc'
      exact hmanned'.running k c' hc'' (Console.powered_of_ne hstarted' hgoes)
    . rw [hacts, performAll_cons, performAll_nil] at hmanned' ⊢
      refine ⟨c', hc', hstarted', ?_⟩
      intro hlisted
      by_cases hover : c'.status = .done
      . -- The stream is none of this console, or else the console would have been pruned.
        rcases hattended (isListed_perform hc hlisted) with ⟨j, id, hb, hopen'⟩
        refine ⟨j, id, boundTo_perform h hb _, isOpen_perform_of_ne hopen' ?_⟩
        intro heq
        rw [Act.close.injEq] at heq
        rw [← heq] at hb
        exact hgoes k id c' hb hc' hover
      . exact hmanned'.running k c' hc' (Console.powered_of_ne hstarted' hover)

theorem vacates_step (hv : s.Vacates k) (h : s.Consistent) (hmanned : s.Manned)
    (hin : ∀ k c, s.lobby.console? k = some c → c.InStep) (op : Operation)
    : (s.step op).Vacates k := by
  rw [step_eq_performAll]
  cases op with
  | endStream i => exact hv.endStream h hmanned hin i
  | _ =>
    apply hv.performAll h
    intro i
    unfold acts
    dsimp
    repeat' split
    all_goals simp

theorem vacates_run {testMode : Bool} {limit : Option Nat} {ops : List Operation}
    (hv : ((initial testMode limit).run ops).Vacates k) (later : List Operation)
    : ((initial testMode limit).run (ops ++ later)).Vacates k := by
  induction later generalizing ops with
  | nil => simpa using hv
  | cons op later ih =>
    have hsplit : ops ++ op :: later = (ops ++ [op]) ++ later := by simp
    rw [hsplit]
    apply ih
    rw [run_append]
    apply vacates_step hv (consistent_run testMode limit ops) (manned_run testMode limit ops)
    exact fun k c hc => inStep_run testMode limit ops hc

end Vacates

/--
Every console that is running is attended: a stream that has not ended belongs to one of its clients.
Once all streams of a console that was started have ended it is off the list, so nobody finds it and it
does not count against the limit.
-/
theorem running_attended (testMode : Bool) (limit : Option Nat) (ops : List Operation) {k : Nat}
    {c : Console} (hc : ((initial testMode limit).run ops).lobby.console? k = some c)
    (hpowered : c.status = .powered)
    : let s := (initial testMode limit).run ops
      (∃ i id m, s.boundTo i = some ⟨k, id⟩ ∧ c.members.get? id = some m ∧ s.isOpen i = true) ∧
        ∀ later,
          let s' := (initial testMode limit).run (ops ++ later)
          (∀ i id, s'.boundTo i = some ⟨k, id⟩ → s'.isOpen i = false) →
            s'.lobby.isListed k = false ∧ (∀ id, s'.lobby.find? id ≠ some k) ∧
              s'.lobby.size = ((s'.lobby.consoles.eraseIdx k).filter (·.listed)).length := by
  intro s
  have hs : s.Consistent := consistent_run testMode limit ops
  have hattended := (manned_run testMode limit ops).running k c hc hpowered
  constructor
  . rcases hattended with ⟨i, id, hb, hopen⟩
    rcases hs.bound i _ hb with ⟨c', m, hc', hm⟩
    rw [hc, Option.some.injEq] at hc'
    exact ⟨i, id, m, hb, hc' ▸ hm, hopen⟩
  . intro later s' hended
    have hvacates : s.Vacates k := ⟨c, hc, by simp [hpowered], fun _ => hattended⟩
    rcases vacates_run hvacates later with ⟨_, _, _, hlisted⟩
    have hnot : s'.lobby.isListed k = false := by
      cases hl : s'.lobby.isListed k with
      | false => rfl
      | true =>
        rcases hlisted hl with ⟨i, id, hb, hopen⟩
        rw [hended i id hb] at hopen
        simp at hopen
    refine ⟨hnot, ?_, Lobby.size_eraseIdx hnot⟩
    intro id hfind
    rw [Lobby.isListed_of_find? hfind] at hnot
    simp at hnot

/-- The stream of the only player ends, after which there is room for another console. -/
theorem running_attended_solo
    : ∃ c, ((initial false (some 1)).run solo).lobby.console? 0 = some c ∧ c.status = .powered ∧
        (∃ i id, ((initial false (some 1)).run solo).boundTo i = some ⟨0, id⟩ ∧
          ((initial false (some 1)).run solo).isOpen i = true) ∧
        ((initial false (some 1)).run (solo ++ [.endStream 0])).lobby.isListed 0 = false := by
  have hstatus : (((initial false (some 1)).run solo).lobby.console? 0).map (·.status)
      = some .powered := by decide +kernel
  rw [Option.map_eq_some_iff] at hstatus
  rcases hstatus with ⟨c, hc, hpowered⟩
  rcases running_attended false (some 1) solo hc hpowered with ⟨⟨i, id, m, hb, _, hopen⟩, hlater⟩
  refine ⟨c, hc, hpowered, ⟨i, id, hb, hopen⟩, (hlater [.endStream 0] ?_).1⟩
  have hended : ((initial false (some 1)).run (solo ++ [.endStream 0])).streams
      = [{ sink := none, binding := some ⟨0, ⟨1⟩⟩, isOpen := false }] := by decide +kernel
  intro j id' _
  unfold isOpen
  rw [hended]
  cases j <;> simp

end Server
end PadRelay
