import PadRelay.Proofs.Party.Reads
import PadRelay.Proofs.Party.Starting

/-!
This module contains the proof that players agree on the input: what they obtain for the same port at
the same frame is the same. The owner of a port stores buttons for a frame only once, since its own queue
holds them until they are read and refuses what was read already. This goes on until the owner has read
the last frame: a queue that was read further takes buttons for that frame again.
-/

namespace PadRelay

variable {β : Type}

/--
What the log says about a port of player `h` is what its queue says. The numbers of frames run out when
a port was read `2 ^ 31` times.
-/
structure Ledger (h : Nat) (delay : Int32) (queues : Queues β) (log : List (Observation β))
    (port : Port) : Prop where
  unread : queues.get? port = none → log.countP (·.isRead h port) = 0
  latest : ∀ q, queues.get? port = some q → log.countP (·.isRead h port) ≤ 0x80000000 →
    q.latest.toInt + 1 = log.countP (·.isRead h port)
  stored : ∀ g buttons, .stored h ⟨port, g, buttons⟩ ∈ log → 0 ≤ g ∧
    ∃ q y, queues.get? port = some q ∧ y.toInt = g.toInt + delay.toInt ∧
      (log.countP (·.isRead h port) ≤ 0x80000000 → y ≤ q.latest ∨ q.frames.get? y = some buttons)
  unique : log.countP (·.isRead h port) ≤ 0x80000000 → ∀ g buttons buttons',
    .stored h ⟨port, g, buttons⟩ ∈ log → .stored h ⟨port, g, buttons'⟩ ∈ log → buttons = buttons'

namespace Ledger

variable {h : Nat} {delay : Int32} {queues queues' : Queues β} {log : List (Observation β)}
  {port : Port}

theorem extend (hl : Ledger h delay queues log port) (hext : ExtendsAll queues queues')
    : Ledger h delay queues' log port where
  unread hnone := by
    apply hl.unread
    cases hq : queues.get? port with
    | none => rfl
    | some q =>
      rcases (hext port).2 q hq with ⟨q', hq', _⟩
      simp [hq'] at hnone
  latest q' hq' hreads := by
    cases hq : queues.get? port with
    | none => simp [(hext port).1 hq] at hq'
    | some q =>
      rcases (hext port).2 q hq with ⟨q₁, hq₁, hsame⟩
      rw [hq', Option.some.injEq] at hq₁
      rw [hq₁, hsame.latest]
      exact hl.latest q hq hreads
  stored g buttons hmem := by
    rcases hl.stored g buttons hmem with ⟨hg, q, y, hq, hy, hkept⟩
    rcases (hext port).2 q hq with ⟨q', hq', hsame⟩
    refine ⟨hg, q', y, hq', hy, ?_⟩
    intro hreads
    rcases hkept hreads with hle | hget
    . exact Or.inl (hsame.latest ▸ hle)
    . exact Or.inr (hsame.frames y buttons hget)
  unique := hl.unique

theorem append (hl : Ledger h delay queues log port) {obs : List (Observation β)}
    (hobs : ∀ o ∈ obs, o.player ≠ h) : Ledger h delay queues (log ++ obs) port := by
  have hcount : (log ++ obs).countP (·.isRead h port) = log.countP (·.isRead h port) := by
    have hzero : obs.countP (·.isRead h port) = 0 := by
      rw [List.countP_eq_zero]
      intro o ho
      have := hobs o ho
      cases o with
      | stored _ _ => simp [Observation.isRead]
      | obtained _ _ _ _ =>
        simpa [Observation.isRead, Observation.player] using fun heq => absurd heq this
    rw [List.countP_append, hzero, Nat.add_zero]
  have hmem : ∀ {u}, Observation.stored h u ∈ log ++ obs → .stored h u ∈ log := by
    intro u hu
    cases List.mem_append.1 hu with
    | inl hu => exact hu
    | inr hu => exact absurd rfl (hobs _ hu)
  constructor
  . rw [hcount]
    exact hl.unread
  . rw [hcount]
    exact hl.latest
  . rw [hcount]
    exact fun g buttons hu => hl.stored g buttons (hmem hu)
  . rw [hcount]
    exact fun hreads g b b' hb hb' => hl.unique hreads g b b' (hmem hb) (hmem hb')

theorem put (hl : Ledger h delay queues log port) {u : ButtonUpdate β} {q q' : FrameQueue β}
    (hq : queues.get? u.port = some q) (hdelay : q.delay = delay)
    (hput : q.put u.frame u.buttons = .ok q')
    : Ledger h delay (queues.insert u.port q') (log ++ [.stored h u]) port := by
  have hl' := hl.extend (extendsAll_insert hq (FrameQueue.extends_put hput))
  rcases FrameQueue.put_eq_ok_iff.1 hput with ⟨x, hframe, hx, _, hlatest, hfree, hq'⟩
  rw [hdelay] at hx
  have hcount : (log ++ [Observation.stored h u]).countP (·.isRead h port)
      = log.countP (·.isRead h port) := by
    simp [Observation.isRead]
  have hmem : ∀ {g buttons}, Observation.stored h ⟨port, g, buttons⟩ ∈ log ++ [.stored h u] →
      .stored h ⟨port, g, buttons⟩ ∈ log ∨ u = ⟨port, g, buttons⟩ := by
    intro g buttons hmem
    rw [List.mem_append, List.mem_singleton, Observation.stored.injEq] at hmem
    rcases hmem with hmem | ⟨_, heq⟩
    . exact Or.inl hmem
    . exact Or.inr heq.symm
  -- Had buttons been stored for this frame before, the queue would have refused these.
  have hnew : ∀ {buttons}, log.countP (·.isRead h port) ≤ 0x80000000 → u.port = port →
      .stored h ⟨port, u.frame, buttons⟩ ∉ log := by
    intro buttons hreads heq hold
    subst heq
    rcases (hl.stored u.frame buttons hold).2 with ⟨q₀, y, hq₀, hy, hkept⟩
    rw [hq, Option.some.injEq] at hq₀
    subst hq₀
    have hxy : y = x := Int32.toInt_inj.1 (by rw [hx, hy])
    rw [hxy] at hkept
    rcases hkept hreads with hle | hget
    . exact Int32.not_lt.2 hle hlatest
    . simp [hfree] at hget
  constructor
  . rw [hcount]
    exact hl'.unread
  . rw [hcount]
    exact hl'.latest
  . rw [hcount]
    intro g buttons hb
    rcases hmem hb with hb | rfl
    . exact hl'.stored g buttons hb
    . refine ⟨hframe, q', x, SortedMap.get?_insert_self _ _ _, hx, fun _ => Or.inr ?_⟩
      rw [hq']
      exact SortedMap.get?_insert_self _ _ _
  . rw [hcount]
    intro hreads g b b' hb hb'
    rcases hmem hb with hold | rfl
    . rcases hmem hb' with hold' | rfl
      . exact hl.unique hreads g b b' hold hold'
      . exact absurd hold (hnew hreads rfl)
    . rcases hmem hb' with hold' | heq
      . exact absurd hold' (hnew hreads rfl)
      . rw [ButtonUpdate.mk.injEq] at heq
        exact heq.2.2

theorem connect (hl : Ledger h delay ∅ log port) {localPorts : PortSet}
    {ports : List ConnectedPort} (hconnects : Game.Connects localPorts ports ∅ queues)
    : Ledger h delay queues log port := by
  have hzero := hl.unread rfl
  have hstored : ∀ {g b}, Observation.stored h ⟨port, g, b⟩ ∉ log := by
    intro g b hmem
    rcases (hl.stored g b hmem).2 with ⟨q, _, hq, _⟩
    simp at hq
  constructor
  . exact fun _ => hzero
  . intro q hq _
    rw [hzero]
    rcases hconnects.origin port q hq with hq | ⟨connected, _, _, rfl⟩
    . simp at hq
    . unfold Game.newQueue
      split
      . show (-1 : Int32).toInt + 1 = 0
        decide
      . show (-1 : Int32).toInt + 1 = 0
        decide
  . exact fun g b hmem => absurd hmem hstored
  . exact fun _ g b b' hmem => absurd hmem hstored

theorem get [Inhabited β] (hl : Ledger h delay queues log port) {port' : Port} {frame : Int32}
    {buttons : β} {q q' : FrameQueue β} (hq : queues.get? port' = some q)
    (hget : q.get frame = .ok (buttons, q'))
    : Ledger h delay (queues.insert port' q') (log ++ [.obtained h port' frame buttons]) port := by
  have hmem : ∀ {u}, Observation.stored h u ∈ log ++ [.obtained h port' frame buttons] →
      .stored h u ∈ log := by
    intro u hu
    rw [List.mem_append, List.mem_singleton] at hu
    rcases hu with hu | heq
    . exact hu
    . simp at heq
  -- A read moves the last frame on by one, so that it stays in step with the number of reads.
  by_cases heq : port' = port
  . subst heq
    have hcount : (log ++ [Observation.obtained h port' frame buttons]).countP
        (·.isRead h port') = log.countP (·.isRead h port') + 1 := by
      simp [Observation.isRead]
    rcases FrameQueue.get_eq_ok_iff.1 hget with ⟨hframe, hcases⟩
    have hlatest : q'.latest = frame := by
      rcases hcases with ⟨_, _, rfl⟩ | ⟨_, _, rfl⟩ <;> rfl
    have hnext : log.countP (·.isRead h port') + 1 ≤ 0x80000000 →
        frame.toInt = log.countP (·.isRead h port') := by
      intro hreads
      have hlast := hl.latest q hq (by omega)
      rw [hframe, FrameQueue.toInt_add_one] <;> omega
    constructor
    . simp
    . intro q₁ hq₁ hreads
      rw [SortedMap.get?_insert_self, Option.some.injEq] at hq₁
      rw [hcount] at hreads ⊢
      rw [← hq₁, hlatest, hnext hreads]
      omega
    . intro g b hb
      rcases hl.stored g b (hmem hb) with ⟨hg, q₀, y, hq₀, hy, hkept⟩
      rw [hq, Option.some.injEq] at hq₀
      subst hq₀
      refine ⟨hg, q', y, SortedMap.get?_insert_self _ _ _, hy, ?_⟩
      intro hreads
      rw [hcount] at hreads
      have hlast := hl.latest q hq (by omega)
      have hnext := hnext hreads
      have hle : q.latest ≤ frame := by
        rw [Int32.le_iff_toInt_le]
        omega
      rcases hkept (by omega) with hread | hkept
      . exact Or.inl (hlatest ▸ Int32.le_trans hread hle)
      . rcases hcases with ⟨_, _, rfl⟩ | ⟨_, _, rfl⟩
        . exact Or.inr hkept
        . by_cases heq : y = frame
          . rw [heq]
            exact Or.inl (Int32.le_refl _)
          . right
            dsimp
            rw [SortedMap.get?_erase, if_neg heq]
            exact hkept
    . intro hreads g b b' hb hb'
      rw [hcount] at hreads
      exact hl.unique (by omega) g b b' (hmem hb) (hmem hb')
  . have hcount : (log ++ [Observation.obtained h port' frame buttons]).countP
        (·.isRead h port) = log.countP (·.isRead h port) := by
      simp [Observation.isRead, heq]
    have hsame : (queues.insert port' q').get? port = queues.get? port :=
      SortedMap.get?_insert_of_ne _ (fun h => heq h.symm) _
    constructor
    . rw [hcount, hsame]
      exact hl.unread
    . rw [hcount, hsame]
      exact hl.latest
    . rw [hcount, hsame]
      exact fun g b hb => hl.stored g b (hmem hb)
    . rw [hcount]
      exact fun hreads g b b' hb hb' => hl.unique hreads g b b' (hmem hb) (hmem hb')

end Ledger

namespace Party

/-- The log is about players, and says what their queues say. -/
structure Recorded (p : Party β) : Prop where
  seated : ∀ o ∈ p.log, o.player < p.players.length
  ledger : ∀ (h : Nat) (x : Player β), p.players[h]? = some x → ∀ port,
    Ledger h x.emulator.delay x.game.queues p.log port

section Step

variable {coder : Coder β} {p : Party β} {m : Move β}

theorem Recorded.newcomer (hrec : p.Recorded) {x : Player β} (hqueues : x.game.queues = ∅)
    (delay : Int32) (port : Port)
    : Ledger p.players.length delay x.game.queues p.log port := by
  have hnone : ∀ o ∈ p.log, o.player ≠ p.players.length := by
    intro o ho
    have := hrec.seated o ho
    omega
  have hstored : ∀ {u}, Observation.stored p.players.length u ∉ p.log :=
    fun hmem => hnone _ hmem rfl
  constructor
  . intro _
    rw [List.countP_eq_zero]
    intro o ho hread
    apply hnone o ho
    cases o with
    | stored _ _ => simp [Observation.isRead] at hread
    | obtained _ _ _ _ =>
      simp only [Observation.isRead, Bool.and_eq_true, decide_eq_true_eq] at hread
      exact hread.1
  . intro q hq
    simp [hqueues] at hq
  . exact fun g b hmem => absurd hmem hstored
  . exact fun _ g b b' hmem => absurd hmem hstored

variable [Inhabited β]

theorem player_of_mem_observed {o : Observation β} (ho : o ∈ p.observed coder m)
    : ∃ x, p.mover? m = some (o.player, x) := by
  unfold observed at ho
  split at ho
  . simp at ho
  . next h x hmover =>
    have heq : o.player = h := by
      unfold Player.observed at ho
      split at ho
      . rw [List.mem_map] at ho
        rcases ho with ⟨u, _, rfl⟩
        rfl
      . rw [Option.mem_toList, Option.map_eq_some_iff] at ho
        rcases ho with ⟨v, _, rfl⟩
        rfl
      . simp at ho
    exact ⟨x, by rw [heq, hmover]⟩

theorem ledger_step (hsound : p.Sound coder) (hstarts : p.Starts) (hrec : p.Recorded)
    {h : Nat} {x' : Player β} (hx' : (p.step coder m).players[h]? = some x') (port : Port)
    : Ledger h x'.emulator.delay x'.game.queues (p.step coder m).log port := by
  rw [log_step]
  cases yields_step hx' with
  | rest hx hother =>
    apply (hrec.ledger h x' hx port).append
    intro o ho
    rcases player_of_mem_observed ho with ⟨y, hmover⟩
    exact hother _ y hmover
  | seat hh hmover hnew =>
    have hobs : p.observed coder m = [] := by simp [observed, hmover]
    rw [hobs, List.append_nil, hh]
    exact hrec.newcomer (newcomer_step hsound.seated hnew).queues _ port
  | @move x _ hx hmover hacts =>
    have hl := hrec.ledger h x hx
    rw [hacts.remains.emulator]
    generalize hobs : p.observed coder m = obs at hacts
    cases hacts with
    | @await h' o ho =>
      rw [List.append_nil]
      rcases (Game.awaitStart?_cases ho).2.2 with ⟨heq, _⟩ | ⟨e, heq, hq | ⟨start, hstart, hq⟩⟩
      . exact heq ▸ hl port
      . exact hq ▸ hl port
      . -- The event that starts the game is on its way, so there are no queues yet.
        have hempty : x.game.queues = ∅ := by
          apply Classical.byContradiction
          intro hne
          have hzero := hstarts.connected h x hx hne
          unfold Server.starts at hzero
          rw [List.countP_eq_zero] at hzero
          have he : e ∈ x.flow p.server := by
            unfold Player.flow
            simp [heq]
          exact hzero e he (by simp [hstart])
        rw [hempty] at hl hq
        rcases hq with hnil | hconnects
        . exact hnil ▸ hl port
        . exact (hl port).connect hconnects
    | @put h' updates howns =>
      have hdelay : ∀ port' q, x.game.localPorts.contains port' = true →
          x.game.queues.get? port' = some q → q.delay = x.emulator.delay := by
        intro port' q hlocal hq
        exact (hsound.queues h x hx port' q hq).eq_delay hsound.seated hx hlocal
      -- Induction on the updates. The ledger needs that the queues delay as their owner does, which is
      -- kept along with it.
      have hstored := Game.storeUpdates_induction coder x.game.consoleId x.game.localPorts updates
        (P := fun queues done =>
          (∀ port' q, x.game.localPorts.contains port' = true → queues.get? port' = some q →
            q.delay = x.emulator.delay) ∧
          Ledger h x.emulator.delay queues (p.log ++ done.map (.stored h)) port)
        ?_ x.game.queues [] ⟨hdelay, by simpa using hl port⟩
      . rw [Game.put_game]
        exact hstored.2
      . intro queues done u q q' hP hmem hq hput
        have hsame := hP.1 u.port q (howns u hmem) hq
        constructor
        . intro port' q₁ hlocal hq₁
          rw [SortedMap.get?_insert] at hq₁
          split at hq₁
          . rw [Option.some.injEq] at hq₁
            rw [← hq₁, (FrameQueue.extends_put hput).delay, hsame]
          . exact hP.1 port' q₁ hlocal hq₁
        . rw [List.map_append, ← List.append_assoc]
          exact hP.2.put hq hsame hput
    | @get h' port' frame o ho =>
      rcases Game.got_get? ho with ⟨queues, hgot, _⟩
      have hpumped := (hl port).extend (hgot.stores.extendsAll)
      rcases hgot.result with ⟨_, hr, heq⟩ | ⟨v, q, q', hr, hq, hget, heq⟩
      . rw [hr, heq]
        simpa [Except.toOption] using hpumped
      . rw [hr, heq]
        exact hpumped.get hq hget
    | _ =>
      rw [List.append_nil]
      exact hl port

theorem recorded_step (hsound : p.Sound coder) (hstarts : p.Starts) (hrec : p.Recorded)
    (m : Move β) : (p.step coder m).Recorded where
  seated o ho := by
    have hmono : ∀ {h x}, p.players[h]? = some x → h < (p.step coder m).players.length := by
      intro h x hx
      rcases remains_step coder m hx with ⟨x', hx', _⟩
      exact (List.getElem?_eq_some_iff.1 hx').1
    rw [log_step] at ho
    cases List.mem_append.1 ho with
    | inl ho => exact hmono (List.getElem?_eq_getElem (hrec.seated o ho))
    | inr ho =>
      rcases player_of_mem_observed ho with ⟨x, hmover⟩
      exact hmono (mover?_eq_some_iff.1 hmover).2
  ledger _ _ hx port := ledger_step hsound hstarts hrec hx port

end Step

/-- Players who obtain buttons of a port at the same frame obtain the same ones. -/
def Agrees (p : Party β) (port : Port) : Prop :=
  ∀ (h h' : Nat) (frame : Int32) (buttons buttons' : β),
    .obtained h port frame buttons ∈ p.log → .obtained h' port frame buttons' ∈ p.log →
      buttons = buttons'

/-- Who owns a port has not read on after its last frame, of which there are `2 ^ 31`. -/
def InRange (p : Party β) (port : Port) : Prop :=
  ∀ (o : Nat) (x : Player β), p.players[o]? = some x → x.game.localPorts.contains port = true →
    p.reads o port ≤ 0x80000000

section Run

variable [Inhabited β] {coder : Coder β} {p : Party β}

theorem agrees_of_sourced (hsound : p.Sound coder) (hrec : p.Recorded) (hsourced : p.Sourced)
    {port : Port} (hreads : p.InRange port) : p.Agrees port := by
  intro h h' frame buttons buttons' hmem hmem'
  rcases List.mem_iff_getElem?.1 hmem with ⟨t, ht⟩
  rcases List.mem_iff_getElem?.1 hmem' with ⟨t', ht'⟩
  rcases hsourced t h port frame buttons ht with ⟨id, ports, delay, hclaim, hport, hcases⟩
  rcases hsourced t' h' port frame buttons' ht' with
    ⟨id', ports', delay', hclaim', hport', hcases'⟩
  rcases hsound.seated.claim_unique hclaim hclaim' hport hport' with ⟨rfl, rfl⟩
  -- Frames are not negative when they are stored, so a frame within the delay was stored by nobody.
  have hstored : ∀ {o : Nat} {x : Player β} {g : Int32} {b : β} {t : Nat},
      p.players[o]? = some x → frame.toInt = g.toInt + delay.toInt →
      .stored o ⟨port, g, b⟩ ∈ p.log.take t → ¬ frame < delay := by
    intro o x g b t hx hframe hlog hlt
    have hg := ((hrec.ledger o x hx port).stored g b (List.mem_of_mem_take hlog)).1
    rw [Int32.le_iff_toInt_le, Int32.toInt_zero] at hg
    rw [Int32.lt_iff_toInt_lt] at hlt
    omega
  rcases hcases with ⟨hlt, rfl⟩ | ⟨o, x, g, hx, hid, hframe, hlog⟩
  . rcases hcases' with ⟨_, rfl⟩ | ⟨o', x', g', hx', _, hframe', hlog'⟩
    . rfl
    . exact absurd hlt (hstored hx' hframe' hlog')
  . rcases hcases' with ⟨hlt, _⟩ | ⟨o', x', g', hx', hid', hframe', hlog'⟩
    . exact absurd hlt (hstored hx hframe hlog)
    . -- Both have it from the same owner, who has stored something for that frame only once.
      have ho := hsound.seated.distinct o o' x x' hx hx' (hid.trans hid'.symm)
      have hg : g = g' := Int32.toInt_inj.1 (by omega)
      subst ho hg
      have hlocal : x.game.localPorts.contains port = true := by
        have hself := hsound.seated.claim o x hx
        rw [hid, hclaim, Option.some.injEq, Prod.mk.injEq] at hself
        rw [← hself.1]
        exact hport
      exact (hrec.ledger o x hx port).unique (hreads o x hx hlocal) g buttons buttons'
        (List.mem_of_mem_take hlog) (List.mem_of_mem_take hlog')

/-- Everything that holds of a party at all times. -/
structure Orderly (coder : Coder β) (p : Party β) : Prop where
  sound : p.Sound coder
  starts : p.Starts
  recorded : p.Recorded
  sourced : p.Sourced

theorem orderly_run (hcoder : coder.Lawful) (h : p.Orderly coder) (moves : List (Move β))
    : (p.run coder moves).Orderly coder := by
  induction moves generalizing p with
  | nil => exact h
  | cons m moves ih =>
    apply ih
    constructor
    . exact sound_step hcoder h.sound m
    . exact starts_step h.sound h.starts m
    . exact recorded_step h.sound h.starts h.recorded m
    . exact sourced_step h.sound h.sourced m

theorem orderly_start (coder : Coder β) (testMode : Bool) (limit : Option Nat)
    (ops : List Server.Operation)
    : (start (β := β) ((Server.initial testMode limit).run ops)).Orderly coder := by
  have hnone : ∀ {h : Nat} {x : Player β},
      (start ((Server.initial testMode limit).run ops)).players[h]? ≠ some x := by simp [start]
  constructor
  . constructor
    . exact seated_start testMode limit ops
    . exact fun h x hx => absurd hx hnone
    . exact fun h x hx => absurd hx hnone
    . exact fun h x hx => absurd hx hnone
    . exact fun h x hx => absurd hx hnone
    . exact fun h x hx => absurd hx hnone
  . constructor
    . exact fun h x hx => absurd hx hnone
    . exact fun h x hx => absurd hx hnone
    . exact fun h x hx => absurd hx hnone
  . constructor
    . simp [start]
    . exact fun h x hx => absurd hx hnone
  . intro t h port frame buttons ht
    simp [start] at ht

/-- Whatever players obtain was stored by the owner of the port, and they agree on it. -/
theorem agreement_of_lawful (hcoder : coder.Lawful) (testMode : Bool) (limit : Option Nat)
    (ops : List Server.Operation) (moves : List (Move β))
    : let p := (start ((Server.initial testMode limit).run ops)).run coder moves
      p.Sourced ∧ ∀ port, p.InRange port → p.Agrees port := by
  intro p
  have h := orderly_run hcoder (orderly_start coder testMode limit ops) moves
  exact ⟨h.sourced, fun port => agrees_of_sourced h.sound h.recorded h.sourced⟩

end Run

/--
Buttons that a player obtains for a port at a frame are the default ones if the frame is within the delay
of the client who owns the port. Otherwise the owner has stored them before, at the frame that is earlier
by that delay. So all players who obtain buttons for the same port at the same frame obtain the same
ones, unless the owner of the port has read it more than `2 ^ 31` times. This holds with both codings, on
every console and whatever happens at the server.
-/
theorem input_agreement (testMode : Bool) (limit : Option Nat) (ops : List Server.Operation)
    : (∀ moves,
        let p := (start ((Server.initial testMode limit).run ops)).run Coder.word moves
        p.Sourced ∧ ∀ port, p.InRange port → p.Agrees port) ∧
      ∀ moves,
        let p := (start ((Server.initial testMode limit).run ops)).run Coder.pad moves
        p.Sourced ∧ ∀ port, p.InRange port → p.Agrees port :=
  ⟨agreement_of_lawful Coder.lawful_word testMode limit ops,
    agreement_of_lawful Coder.lawful_pad testMode limit ops⟩

/-- Two players take their seats, the first of which delays its input, and start a game. -/
def openingWith (delay : Int32) : List (Move UInt32) :=
  [.serve (.makeConsole { title := "a" }),
    .seat { consoleId := ⟨1⟩, delay } [.one], .seat { consoleId := ⟨1⟩ } [.two],
    .ready 0, .ready 1, .transmit 0, .transmit 1, .serve (.startGame { consoleId := 1 }),
    .deliver 0 1, .deliver 1 1, .await 0, .await 1]

def opening : List (Move UInt32) :=
  openingWith 1

def duel : List (Move UInt32) :=
  [.put 0 [⟨.one, 0, 7⟩], .transmit 0, .deliver 1 1,
    .get 1 .one 0, .get 1 .one 1, .get 0 .one 0, .get 0 .one 1]

theorem input_agreement_duel
    : let p := (start (Server.initial false none)).run Coder.word (opening ++ duel)
      p.log = [.stored 0 ⟨.one, 0, 7⟩, .obtained 1 .one 0 0, .obtained 1 .one 1 7,
        .obtained 0 .one 0 0, .obtained 0 .one 1 7] ∧ p.Sourced ∧ p.Agrees .one := by
  intro p
  have hlog : p.log = [.stored 0 ⟨.one, 0, 7⟩, .obtained 1 .one 0 0, .obtained 1 .one 1 7,
      .obtained 0 .one 0 0, .obtained 0 .one 1 7] := by decide +kernel
  rcases (input_agreement false none []).1 (opening ++ duel) with ⟨hsourced, hagrees⟩
  refine ⟨hlog, hsourced, hagrees .one ?_⟩
  intro o x _ _
  have hfew : p.reads o .one ≤ p.log.length := List.countP_le_length
  rw [hlog] at hfew
  exact Nat.le_trans hfew (by decide)

/-- The second player takes the first buttons for port 1 for another start event, and loses them. -/
def missed : List (Move UInt32) :=
  openingWith Int32.maxValue ++ [.put 0 [⟨.one, 0, 7⟩], .transmit 0, .deliver 1 1, .await 1]

/-- The first player reads on after the last frame and puts other buttons for it. -/
def readsOn : List (Move UInt32) :=
  [.get 0 .one Int32.maxValue, .get 0 .one Int32.minValue, .put 0 [⟨.one, 0, 8⟩], .transmit 0,
    .deliver 1 1]

def overrun : List (Move UInt32) :=
  missed ++ gets 0 .one 0x7FFFFFFF ++ readsOn ++ gets 1 .one 0x7FFFFFFF ++
    [.get 1 .one Int32.maxValue]

/-- The party of `overrun` before the first player reads the last frame. -/
def beforeLast : Party UInt32 :=
  ((start (Server.initial false none)).run Coder.word missed).skip 0 .one 0x7FFFFFFF

/-- The party of `overrun` before the second player reads the last frame. -/
def afterLast : Party UInt32 :=
  (beforeLast.run Coder.word readsOn).skip 1 .one 0x7FFFFFFF

theorem run_overrun
    : (start (Server.initial false none)).run Coder.word overrun
        =
      afterLast.run Coder.word [.get 1 .one Int32.maxValue] := by
  have hfirst : ((start (Server.initial false none)).run Coder.word missed).skips 0 .one 0x7FFFFFFF
      = true := by decide +kernel
  have hsecond : (beforeLast.run Coder.word readsOn).skips 1 .one 0x7FFFFFFF = true := by
    decide +kernel
  have hbefore : (start (Server.initial false none)).run Coder.word
      (missed ++ gets 0 .one 0x7FFFFFFF) = beforeLast := run_append_gets hfirst
  unfold overrun
  rw [run_append, run_append_gets, run_append, hbefore]
  . rfl
  . rw [run_append, hbefore]
    exact hsecond

theorem log_overrun
    : ((start (Server.initial false none)).run Coder.word overrun).log
        =
      [.stored 0 ⟨.one, 0, 7⟩] ++ defaults 0 .one 0x7FFFFFFF ++
        [.obtained 0 .one Int32.maxValue 7, .obtained 0 .one Int32.minValue 0,
          .stored 0 ⟨.one, 0, 8⟩] ++
        defaults 1 .one 0x7FFFFFFF ++ [.obtained 1 .one Int32.maxValue 8] := by
  -- The log grows with every read, so what is evaluated here are the parties without it.
  have hmissed : ((start (Server.initial false none)).run Coder.word missed).log
      = [.stored 0 ⟨.one, 0, 7⟩] := by decide +kernel
  have hreadsOn : (beforeLast.forget.run Coder.word readsOn).log
      = [.obtained 0 .one Int32.maxValue 7, .obtained 0 .one Int32.minValue 0,
        .stored 0 ⟨.one, 0, 8⟩] := by decide +kernel
  have hlast : (afterLast.forget.run Coder.word [.get 1 .one Int32.maxValue]).log
      = [.obtained 1 .one Int32.maxValue 8] := by decide +kernel
  have hbefore : beforeLast.log
      = ((start (Server.initial false none)).run Coder.word missed).log
        ++ defaults 0 .one 0x7FFFFFFF := rfl
  have hafter : afterLast.log
      = (beforeLast.run Coder.word readsOn).log ++ defaults 1 .one 0x7FFFFFFF := rfl
  rw [run_overrun, (run_forget _ _ _).2, hlast, hafter, (run_forget _ _ _).2, hreadsOn, hbefore,
    hmissed]

/-- What follows from the log of `overrun` does not depend on how long it is. -/
theorem not_agrees_of_log {p : Party UInt32} {n : Nat}
    (hlog : p.log = [.stored 0 ⟨.one, 0, 7⟩] ++ defaults 0 .one n ++
      [.obtained 0 .one Int32.maxValue 7, .obtained 0 .one Int32.minValue 0,
        .stored 0 ⟨.one, 0, 8⟩] ++
      defaults 1 .one n ++ [.obtained 1 .one Int32.maxValue 8])
    : p.reads 0 .one = n + 2 ∧ ¬ p.Agrees .one := by
  constructor
  . unfold reads
    rw [hlog]
    simp only [List.countP_append, countP_defaults, List.countP_cons, List.countP_nil]
    simp [Observation.isRead]
  . intro hagrees
    have hseven : .obtained 0 .one Int32.maxValue 7 ∈ p.log := by
      rw [hlog]
      simp
    have height : .obtained 1 .one Int32.maxValue 8 ∈ p.log := by
      rw [hlog]
      simp
    exact absurd (hagrees 0 1 Int32.maxValue 7 8 hseven height) (by decide)

/-- After one read more than there are frames the players do not agree on the last one. -/
theorem not_input_agreement
    : let p := (start (Server.initial false none)).run Coder.word overrun
      p.reads 0 .one = 0x80000001 ∧ ¬ p.Agrees .one :=
  not_agrees_of_log log_overrun

end Party

end PadRelay
