import PadRelay.Proofs.Lobby.Basic
import PadRelay.Proofs.Server.PortExclusivity

/-!
This module contains the proof that identifiers count what succeeded. All consoles of a server draw the
identifiers of their clients from one counter, and a request that fails does not draw any.
-/

namespace PadRelay
namespace Server

def consoleAnswer? (s : Server) : Operation → Option MakeConsoleResponse
  | .makeConsole request => some (s.makeConsole request).1
  | _ => none

/-- The answers to all requests for a console, in the order of the requests. -/
def consoleAnswers (s : Server) (ops : List Operation) : List MakeConsoleResponse :=
  answers step consoleAnswer? s ops

def plugAnswer? (s : Server) : Operation → Option (PlugRequest × PlugResponse)
  | .plugController request => some (request, (s.plugController request).1)
  | _ => none

/-- The requests for ports of any console, and how they were answered. -/
def plugAnswers (s : Server) (ops : List Operation) : List (PlugRequest × PlugResponse) :=
  answers step plugAnswer? s ops

def isOpened (r : MakeConsoleResponse) : Bool :=
  r.status = Enumeration.number MakeConsoleStatus.success

def isPlugged (x : PlugRequest × PlugResponse) : Bool :=
  x.2.status = Enumeration.number PlugStatus.success

theorem SetsOne.sameNumbers {s s' : Server} (h : s.SetsOne s') : s.lobby.SameNumbers s'.lobby := by
  rcases h.lobby with heq | ⟨k, c, c', _, hc, hid, heq⟩
  . rw [heq]
    exact .refl s.lobby
  . have hset := (Lobby.sameRegister_set hc hid).sameNumbers
    rw [heq]
    exact ⟨hset.ids, hset.consoleIds⟩

theorem sameNumbers_perform {s : Server} {a : Act}
    (hcreate : ∀ title romName romHash, a ≠ .create title romName romHash)
    : s.lobby.SameNumbers (s.perform a).lobby := by
  cases a with
  | create title romName romHash => exact absurd rfl (hcreate title romName romHash)
  | prune => exact Lobby.sameNumbers_removeFinished s.lobby
  | halt => exact .refl s.lobby
  | _ => exact (setsOne_perform (by simp) (by simp) (by simp)).sameNumbers

theorem create_mem_acts {s : Server} {op : Operation} {title romName romHash : String}
    (ha : .create title romName romHash ∈ s.acts op) : ∃ request, op = .makeConsole request := by
  unfold acts at ha
  cases op with
  | makeConsole request => exact ⟨request, rfl⟩
  | shutDown request =>
    dsimp at ha
    split at ha <;> simp at ha
  | _ =>
    dsimp at ha
    repeat' split at ha
    all_goals simp at ha

theorem sameNumbers_step {s : Server} {op : Operation} (hop : ∀ request, op ≠ .makeConsole request)
    : s.lobby.SameNumbers (s.step op).lobby := by
  have hacts : ∀ title romName romHash, .create title romName romHash ∉ s.acts op := by
    intro title romName romHash ha
    rcases create_mem_acts ha with ⟨request, heq⟩
    exact hop request heq
  rw [step_eq_performAll]
  generalize s.acts op = acts at hacts
  induction acts generalizing s with
  | nil => exact .refl s.lobby
  | cons a acts ih =>
    have ha : ∀ title romName romHash, a ≠ .create title romName romHash := by
      rintro title romName romHash rfl
      exact hacts title romName romHash List.mem_cons_self
    apply (sameNumbers_perform ha).trans
    apply ih
    exact fun title romName romHash hmem => hacts title romName romHash (List.mem_cons_of_mem _ hmem)

theorem makeConsole_cases (s : Server) (request : MakeConsoleRequest)
    : s.makeConsole request
        =
      ({ status := Enumeration.number MakeConsoleStatus.unspecifiedFailure },
        { s with lobby := s.lobby.removeFinished }) ∨
      s.makeConsole request
        =
      ({ status := Enumeration.number MakeConsoleStatus.success
         consoleId := s.lobby.consoleIds.next },
        { s with lobby := s.lobby.opened request.title request.romName request.romHash }) := by
  rcases Lobby.create_cases s.lobby request.title request.romName request.romHash with
    ⟨_, heq⟩ | ⟨_, heq⟩
  . exact Or.inl (by simp only [makeConsole, heq])
  . exact Or.inr (by simp only [makeConsole, heq])

/-- An operation opens no console, or it opens the next one and answers with the number of that. -/
theorem consoleAnswer?_cases (s : Server) (op : Operation)
    : ((∀ r, s.consoleAnswer? op = some r → isOpened r = false ∧ r.consoleId = 0) ∧
        s.lobby.SameNumbers (s.step op).lobby) ∨
      ∃ r title romName romHash, s.consoleAnswer? op = some r ∧ isOpened r = true ∧
        r.consoleId = s.lobby.consoleIds.next ∧
        (s.step op).lobby = s.lobby.opened title romName romHash := by
  by_cases hop : ∃ request, op = .makeConsole request
  . rcases hop with ⟨request, rfl⟩
    unfold consoleAnswer? step
    dsimp
    rcases makeConsole_cases s request with heq | heq
    . left
      rw [heq]
      refine ⟨?_, Lobby.sameNumbers_removeFinished s.lobby⟩
      intro r hr
      rw [Option.some.injEq] at hr
      rw [← hr]
      dsimp
      exact ⟨by decide, rfl⟩
    . right
      rw [heq]
      exact ⟨_, _, _, _, rfl, by simp [isOpened], rfl, rfl⟩
  . rw [not_exists] at hop
    refine Or.inl ⟨?_, sameNumbers_step hop⟩
    intro r hr
    cases op with
    | makeConsole request => exact absurd rfl (hop request)
    | _ => simp [consoleAnswer?] at hr

theorem drawn_consoleAnswers {n : Nat} {s : Server} (hn : s.lobby.Counts n) (ops : List Operation)
    : IdSource.Drawn n (((s.consoleAnswers ops).filter isOpened).map (·.consoleId)) := by
  refine (drawn_answers step consoleAnswer? (P := fun n s => s.lobby.Counts n) ?_ hn ops).1
  intro n s op hn
  rcases consoleAnswer?_cases s op with ⟨hanswer, hsame⟩ | ⟨r, _, _, _, hr, hopened, hid, hlobby⟩
  . exact Or.inl ⟨fun r hr => (hanswer r hr).1, hsame.counts hn⟩
  . refine Or.inr ⟨r, hr, hopened, by rw [hid, hn.1.next, hn.2], ?_⟩
    rw [hlobby]
    exact Lobby.counts_opened hn _ _ _

section Clients

variable {n : Nat} {s : Server}

/--
The bookkeeping of clients after `n` requests for ports were served. The counter may have wrapped around.
-/
structure Counted (n : Nat) (s : Server) : Prop where
  consistent : s.Consistent
  next : s.lobby.clientIds.next = IdSource.nth n
  drawn : ∀ k id x, s.claim? k id = some x → ∃ i < n, id = ⟨IdSource.nth i⟩
  unique : n ≤ 0x7fffffffffffffff →
    ∀ k j id x y, s.claim? k id = some x → s.claim? j id = some y → k = j

theorem counted_initial (testMode : Bool) (limit : Option Nat)
    : (initial testMode limit).Counted 0 where
  consistent := consistent_initial testMode limit
  next := rfl
  drawn k id x hx := by simp [claim?, initial, Lobby.console?] at hx
  unique _ k j id x y hx := by simp [claim?, initial, Lobby.console?] at hx

theorem Counted.preserves {s' : Server} (h : s.Counted n) (hs : s.Preserves s')
    (hcons : s'.Consistent) : s'.Counted n where
  consistent := hcons
  next := by
    rw [hs.clientIds]
    exact h.next
  drawn k id x hx := h.drawn k id x (hs.claim? k id ▸ hx)
  unique hn k j id x y hx hy := h.unique hn k j id x y (hs.claim? k id ▸ hx) (hs.claim? j id ▸ hy)

theorem Counted.fresh (h : s.Counted n) (hn : n < 0x10000000000000000) (k : Nat)
    : s.claim? k ⟨s.lobby.clientIds.next⟩ = none := by
  cases hx : s.claim? k ⟨s.lobby.clientIds.next⟩ with
  | none => rfl
  | some x =>
    rcases h.drawn k _ x hx with ⟨i, hi, heq⟩
    rw [h.next, ClientId.mk.injEq] at heq
    have := IdSource.nth_inj hn (by omega) heq
    omega

theorem Counted.plugs {s' : Server} (h : s.Counted n) {k : Nat} {ports : PortSet} {delay : Int32}
    (hs : s.Plugs s' k ports delay) (hcons : s'.Consistent) : s'.Counted (n + 1) where
  consistent := hcons
  next := by rw [hs.clientIds, h.next, IdSource.nth_add_one]
  drawn j id x hx := by
    rw [hs.claim?] at hx
    split at hx
    . next heq => exact ⟨n, by omega, by rw [heq.2, h.next]⟩
    . rcases h.drawn j id x hx with ⟨i, hi, heq⟩
      exact ⟨i, by omega, heq⟩
  unique hn i j id x y hx hy := by
    have hfresh := h.fresh (by omega)
    rw [hs.claim?] at hx hy
    split at hx
    . next heq =>
      split at hy
      . next heq' => rw [heq.1, heq'.1]
      . rw [heq.2, hfresh] at hy
        simp at hy
    . split at hy
      . next heq =>
        rw [heq.2, hfresh] at hx
        simp at hx
      . exact h.unique (by omega) i j id x y hx hy

theorem served_eq_any (s : Server) (op : Operation)
    : s.served op = (s.plugAnswer? op).any isPlugged := by
  cases op <;> rfl

theorem counted_step (h : s.Counted n) (op : Operation)
    : ((∀ x, s.plugAnswer? op = some x → isPlugged x = false) ∧ (s.step op).Counted n) ∨
      ∃ x, s.plugAnswer? op = some x ∧ isPlugged x = true ∧ x.2.clientId = IdSource.nth n ∧
        (s.step op).Counted (n + 1) := by
  have hcons := consistent_step h.consistent op
  cases hserved : s.served op with
  | false =>
    refine Or.inl ⟨?_, h.preserves (preserves_step h.consistent hserved) hcons⟩
    intro x hx
    rw [served_eq_any, hx, Option.any_some] at hserved
    exact hserved
  | true =>
    cases op with
    | plugController request =>
      rcases plugs_of_served hserved with ⟨k, c, ports, _, hanswer, hplugs⟩
      refine Or.inr ⟨_, rfl, hserved, ?_, h.plugs hplugs hcons⟩
      rw [hanswer, ← h.next]
    | _ => simp [served] at hserved

theorem drawn_plugAnswers (h : s.Counted n) (ops : List Operation)
    : let plugged := (s.plugAnswers ops).filter isPlugged
      IdSource.Drawn n (plugged.map (·.2.clientId)) ∧ (s.run ops).Counted (n + plugged.length) :=
  drawn_answers step plugAnswer? (P := Counted) (fun _ _ op h => counted_step h op) h ops

/-- A request for ports is answered for the console that it names. If it fails nothing is given away. -/
theorem plugAnswer?_eq_some {op : Operation} {x : PlugRequest × PlugResponse}
    (hx : s.plugAnswer? op = some x)
    : x.2.consoleId = x.1.consoleId ∧ (isPlugged x = false → x.2.clientId = 0 ∧ x.2.ports = []) := by
  cases op with
  | plugController request =>
    unfold plugAnswer? plugController at hx
    dsimp at hx
    rw [Option.some.injEq] at hx
    rw [← hx]
    split
    . exact ⟨rfl, fun _ => ⟨rfl, rfl⟩⟩
    . split
      . next e _ => cases e <;> exact ⟨rfl, fun _ => ⟨rfl, rfl⟩⟩
      . refine ⟨rfl, ?_⟩
        intro hfailed
        simp [isPlugged] at hfailed
  | _ => simp [plugAnswer?] at hx

end Clients

/--
The identifiers of consoles and of clients count the requests that succeed, and every other answer
carries none. As long as the counters do not wrap around identifiers are positive and never used again,
and no two consoles have clients of the same identifier.
-/
theorem ids_count_successes (testMode : Bool) (limit : Option Nat) (ops : List Operation)
    : let s := initial testMode limit
      let opened := (s.consoleAnswers ops).filter isOpened
      let plugged := (s.plugAnswers ops).filter isPlugged
      (∀ (k : Nat) r, opened[k]? = some r → k < 0x7fffffffffffffff → r.consoleId.toInt = k + 1) ∧
        (∀ (k : Nat) x, plugged[k]? = some x → k < 0x7fffffffffffffff → x.2.clientId.toInt = k + 1) ∧
        (∀ r ∈ s.consoleAnswers ops, isOpened r = false → r.consoleId = 0) ∧
        (∀ x ∈ s.plugAnswers ops, x.2.consoleId = x.1.consoleId ∧
          (isPlugged x = false → x.2.clientId = 0 ∧ x.2.ports = [])) ∧
        (opened.length ≤ 0x7fffffffffffffff →
          (∀ r ∈ opened, 0 < r.consoleId) ∧ (opened.map (·.consoleId)).Nodup) ∧
        (plugged.length ≤ 0x7fffffffffffffff →
          (∀ x ∈ plugged, 0 < x.2.clientId) ∧ (plugged.map (·.2.clientId)).Nodup ∧
            ∀ k j c c' id m m', (s.run ops).lobby.console? k = some c → c.members.get? id = some m →
              (s.run ops).lobby.console? j = some c' → c'.members.get? id = some m' → k = j) := by
  intro s opened plugged
  have hopened : IdSource.Drawn 0 (opened.map (·.consoleId)) :=
    drawn_consoleAnswers (s := s) ⟨Lobby.numbered_empty limit, rfl⟩ ops
  rcases drawn_plugAnswers (counted_initial testMode limit) ops with ⟨hplugged, hcounted⟩
  rw [Nat.zero_add] at hcounted
  refine ⟨?_, ?_, ?_, ?_, ?_, ?_⟩
  . intro k r hr hk
    have hid : (opened.map (·.consoleId))[k]? = some r.consoleId := by
      rw [List.getElem?_map, hr, Option.map_some]
    rw [hopened.eq_nth hid, Nat.zero_add, IdSource.toInt_nth hk]
  . intro k x hx hk
    have hid : (plugged.map (·.2.clientId))[k]? = some x.2.clientId := by
      rw [List.getElem?_map, hx, Option.map_some]
    rw [hplugged.eq_nth hid, Nat.zero_add, IdSource.toInt_nth hk]
  . intro r hr hfailed
    rcases answered_of_mem hr with ⟨s', op, hr⟩
    rcases consoleAnswer?_cases s' op with ⟨hanswer, _⟩ | ⟨r', _, _, _, hr', hok, _⟩
    . exact (hanswer r hr).2
    . rw [hr, Option.some.injEq] at hr'
      rw [hr', hok] at hfailed
      simp at hfailed
  . intro x hx
    rcases answered_of_mem hx with ⟨s', op, hx⟩
    exact plugAnswer?_eq_some hx
  . intro hfew
    have hfew : 0 + (opened.map (·.consoleId)).length ≤ 0x7fffffffffffffff := by simpa using hfew
    exact ⟨fun r hr => hopened.pos hfew (List.mem_map_of_mem hr), hopened.nodup hfew⟩
  . intro hfew
    have hfew' : 0 + (plugged.map (·.2.clientId)).length ≤ 0x7fffffffffffffff := by simpa using hfew
    refine ⟨?_, hplugged.nodup hfew', ?_⟩
    . intro x hx
      exact hplugged.pos hfew' (List.mem_map_of_mem (f := fun x => x.2.clientId) hx)
    . intro k j c c' id m m' hc hm hc' hm'
      have hclaim := claim?_eq_some_iff.2 ⟨c, m, hc, hm, rfl, rfl⟩
      have hclaim' := claim?_eq_some_iff.2 ⟨c', m', hc', hm', rfl, rfl⟩
      exact hcounted.unique hfew k j id _ _ hclaim hclaim'

/--
There may be one console only. The second request for ports asks for a port that is taken. The second
request for a console is refused, until the only client of the first console has left.
-/
def succession : List Operation :=
  [.makeConsole { title := "a" },
    .plugController { consoleId := 1, port1 := 2 },
    .plugController { consoleId := 1, port1 := 2 },
    .makeConsole { title := "b" },
    .openStream,
    .receive 0 { ready := some { consoleId := 1, clientId := 1 } },
    .startGame { consoleId := 1 },
    .endStream 0,
    .makeConsole { title := "b" },
    .plugController { consoleId := 2, port1 := 2 }]

theorem ids_count_successes_succession
    : let s := initial false (some 1)
      let opened := (s.consoleAnswers succession).filter isOpened
      let plugged := (s.plugAnswers succession).filter isPlugged
      (∃ r, opened[1]? = some r ∧ r.consoleId.toInt = 2) ∧
        (∃ x, plugged[1]? = some x ∧ x.2.clientId.toInt = 2) ∧
        (∃ r ∈ s.consoleAnswers succession, isOpened r = false ∧ r.consoleId = 0) ∧
        (∃ x ∈ s.plugAnswers succession, isPlugged x = false ∧ x.2.clientId = 0 ∧ x.2.ports = []) ∧
        opened.length = 2 ∧ (opened.map (·.consoleId)).Nodup ∧
        plugged.length = 2 ∧ (plugged.map (·.2.clientId)).Nodup := by
  intro s opened plugged
  have hopened : opened[1]? = some { status := 1, consoleId := 2 } := by decide +kernel
  have hplugged : plugged[1]? = some ({ consoleId := 2, port1 := 2 },
      { status := 1, consoleId := 2, clientId := 2, ports := [2] }) := by
    decide +kernel
  have hrefused : { status := 2 } ∈ s.consoleAnswers succession := by decide +kernel
  have hrejected : ({ consoleId := 1, port1 := 2 },
      { status := 5, consoleId := 1, rejections := [{ port := 2, reason := 2 }] })
        ∈ s.plugAnswers succession := by
    decide +kernel
  have hconsoles : opened.length = 2 := by decide +kernel
  have hclients : plugged.length = 2 := by decide +kernel
  rcases ids_count_successes false (some 1) succession with
    ⟨hconsole, hclient, hfailed, hechoed, honce, honce'⟩
  refine ⟨⟨_, hopened, hconsole 1 _ hopened (by decide)⟩,
    ⟨_, hplugged, hclient 1 _ hplugged (by decide)⟩,
    ⟨_, hrefused, by decide, hfailed _ hrefused (by decide)⟩,
    ⟨_, hrejected, by decide, (hechoed _ hrejected).2 (by decide)⟩, hconsoles, ?_, hclients, ?_⟩
  . exact (honce (by rw [hconsoles]; decide)).2
  . exact (honce' (by rw [hclients]; decide)).2.1

end Server
end PadRelay
