import PadRelay.Proofs.Party.Supply
import PadRelay.Proofs.Server.Relay

/-!
This module contains what holds at any time of normal play. Everybody has put, sent and been told about
the input of some number of frames, and these numbers say all about the queues and about what is on its
way. Every move of normal play keeps this.
-/

namespace PadRelay

variable {β : Type}

/-- The events tell about the input of player `y` for its frames from one on and up to another. -/
inductive Queued (coder : Coder β) (input : Nat → Port → β) (y : Player β) :
    Nat → List OutgoingEvent → Nat → Prop
  | nil {n : Nat} : Queued coder input y n [] n
  | cons {n last : Nat} {keys : List KeyState} {rest : List OutgoingEvent} :
    Tells coder input y n keys → Queued coder input y (n + 1) rest last →
    Queued coder input y n ({ keys := keys } :: rest) last

section Queued

variable {coder : Coder β} {input : Nat → Port → β} {y : Player β} {first last : Nat}
  {events : List OutgoingEvent}

theorem Queued.concat (h : Queued coder input y first events last) {keys : List KeyState}
    (htells : Tells coder input y last keys)
    : Queued coder input y first (events ++ [{ keys := keys }]) (last + 1) := by
  induction h with
  | nil => exact .cons htells .nil
  | cons hfirst _ ih => exact .cons hfirst (ih htells)

theorem Queued.length (h : Queued coder input y first events last)
    : first + events.length = last := by
  induction h with
  | nil => rfl
  | cons _ _ ih =>
    rw [List.length_cons, ← ih]
    omega

end Queued

/-- What is to be obtained for a port of a player at a frame if this is the input of the player. -/
def Player.buttonsAt [Inhabited β] (y : Player β) (input : Nat → Port → β) (port : Port)
    (frame : Int32) : β :=
  FrameQueue.readAt y.emulator.delay.toInt (fun n => input n port) frame.toInt

/-- A game gives these buttons when asked for a port at a frame. -/
def Game.Gives [Inhabited β] (coder : Coder β) (g : Game β) (port : Port) (frame : Int32)
    (buttons : β) : Prop :=
  ∃ out, g.get? coder port frame = some out ∧ out.result = .ok buttons

/-- A game: its console, the players when it starts, and their input for a number of frames. -/
structure Table (β : Type) where
  consoleId : ConsoleId
  members : SortedMap ClientId Member
  seats : List (Player β)
  frames : Nat
  input : Nat → Nat → Port → β
  apart : Apart seats
  fits : ∀ (h : Nat) (y : Player β), seats[h]? = some y → frames + y.emulator.delay.toInt < 0x80000000
  sameConsole : ∀ (h : Nat) (y : Player β), seats[h]? = some y → y.game.consoleId = consoleId
  distinct : ∀ (h h' : Nat) (y y' : Player β), seats[h]? = some y → seats[h']? = some y' →
    y.game.clientId = y'.game.clientId → h = h'
  member : ∀ (h : Nat) (y : Player β), seats[h]? = some y → ∃ m i,
    members.get? y.game.clientId = some m ∧ m.ports = y.game.localPorts ∧ m.mailbox = some i ∧
      y.stream = some i
  seat : ∀ id m, members.get? id = some m → m.status = .playing ∧
    ∃ (h : Nat) (y : Player β), seats[h]? = some y ∧ y.game.clientId = id

namespace Table

/-- The server still has the console as it was, and nobody has stopped listening. -/
structure Staged (t : Table β) (s : Server) (k : Nat) : Prop where
  consistent : s.Consistent
  console : ∃ c, s.lobby.console? k = some c ∧ c.members = t.members ∧ c.id = t.consoleId
  box : ∀ (h : Nat) (y : Player β) (i : Nat), t.seats[h]? = some y → y.stream = some i →
    ∃ b, s.room.boxes[i]? = some b ∧ b.hasReader = true

/--
Player `h`, who started as `y`, has put the input of `puts` frames. Of player `o` the input of `sent o`
frames was sent.
-/
structure Keeps (coder : Coder β) (t : Table β) (puts : Nat) (sent : Nat → Nat) (h : Nat)
    (y x : Player β) (mail : List IncomingEvent) (reads : Port → Nat) : Prop where
  remains : y.Remains x
  stream : x.stream = y.stream
  queued : Queued coder (t.input h) y (sent h) x.outbox puts
  supplied : ∃ seen told, Supplied coder t.seats t.input h puts told reads x.game seen ∧
    Follows coder t.seats t.input h told mail sent

/-- A party in normal play, after player `h` has put the input of `puts h` frames. -/
structure InPlay (coder : Coder β) (t : Table β) (puts sent : Nat → Nat) (p : Party β) : Prop where
  staged : t.Staged p.server p.console
  within : ∀ h, puts h ≤ t.frames
  present : ∀ (h : Nat) (y : Player β), t.seats[h]? = some y → ∃ x, p.players[h]? = some x
  player : ∀ (h : Nat) (x : Player β), p.players[h]? = some x → ∃ y, t.seats[h]? = some y ∧
    t.Keeps coder (puts h) sent h y x (x.mail p.server) (p.reads h)

end Table

theorem Player.Remains.trans {x x' x'' : Player β} (h : x.Remains x') (h' : x'.Remains x'')
    : x.Remains x'' where
  emulator := h'.emulator.trans h.emulator
  seat := ⟨h'.seat.consoleId.trans h.seat.consoleId, h'.seat.clientId.trans h.seat.clientId,
    h'.seat.localPorts.trans h.seat.localPorts⟩

theorem Observation.countP_stored (a : Nat) (updates : List (ButtonUpdate β)) (h : Nat) (port : Port)
    : (updates.map (Observation.stored a)).countP (·.isRead h port) = 0 := by
  rw [List.countP_eq_zero]
  intro o ho
  rw [List.mem_map] at ho
  rcases ho with ⟨u, _, rfl⟩
  simp [Observation.isRead]

namespace Party

variable [Inhabited β] {coder : Coder β} {p : Party β} {m : Move β} {a h : Nat} {x' : Player β}

theorem reads_step (coder : Coder β) (p : Party β) (m : Move β) (h : Nat) (port : Port)
    : (p.step coder m).reads h port
        = p.reads h port + (p.observed coder m).countP (·.isRead h port) := by
  unfold reads
  rw [log_step, List.countP_append]

theorem reads_step_of_ne (hactor : m.actor? = some a) (hne : h ≠ a)
    : (p.step coder m).reads h = p.reads h := by
  funext port
  rw [reads_step]
  have hzero : (p.observed coder m).countP (·.isRead h port) = 0 := by
    rw [List.countP_eq_zero]
    intro o ho hread
    rcases player_of_mem_observed ho with ⟨x, hmover⟩
    have hplayer := (mover?_eq_some_iff.1 hmover).1
    rw [hactor, Option.some.injEq] at hplayer
    apply hne
    cases o with
    | stored _ _ => simp [Observation.isRead] at hread
    | obtained _ _ _ _ =>
      simp only [Observation.isRead, Bool.and_eq_true, decide_eq_true_eq] at hread
      rw [hplayer, ← hread.1]
      rfl
  rw [hzero, Nat.add_zero]

theorem players_step_cases (hactor : m.actor? = some a)
    (hx' : (p.step coder m).players[h]? = some x')
    : (h = a ∧ ∃ x, p.players[a]? = some x ∧ x' = x.act coder p.server m) ∨
        (h ≠ a ∧ p.players[h]? = some x') := by
  replace hx' : (p.roster coder m)[h]? = some x' := hx'
  unfold roster at hx'
  rw [hactor] at hx'
  rcases getElem?_modify_cases hx' with ⟨x, hx, ⟨rfl, rfl⟩ | ⟨hne, rfl⟩⟩
  . exact Or.inl ⟨rfl, x, hx, rfl⟩
  . exact Or.inr ⟨fun heq => hne heq.symm, hx⟩

end Party

/-- The console and the mailboxes of the players are left as they are. -/
def Party.Ignores (p : Party β) (op : Server.Operation) : Prop :=
  (p.server.step op).lobby.console? p.console = p.server.lobby.console? p.console ∧
    ∀ (h : Nat) (x : Player β) (i : Nat), p.players[h]? = some x → x.stream = some i →
      (p.server.step op).room.boxes[i]? = p.server.room.boxes[i]?

namespace Table

section Step

variable [Inhabited β] {coder : Coder β} {t : Table β} {puts sent puts' sent' : Nat → Nat}
  {p : Party β} {m : Move β} {a : Nat}

theorem InPlay.step_of (h : t.InPlay coder puts sent p) (hactor : m.actor? = some a)
    (hstaged : t.Staged (p.served m) p.console) (hwithin : ∀ o, puts' o ≤ t.frames)
    (hself : ∀ x y, p.players[a]? = some x → t.seats[a]? = some y →
      t.Keeps coder (puts a) sent a y x (x.mail p.server) (p.reads a) →
        t.Keeps coder (puts' a) sent' a y (x.act coder p.server m)
          ((x.act coder p.server m).mail (p.served m)) ((p.step coder m).reads a))
    (hother : ∀ (o : Nat) (x y : Player β), o ≠ a → p.players[o]? = some x → t.seats[o]? = some y →
      t.Keeps coder (puts o) sent o y x (x.mail p.server) (p.reads o) →
        t.Keeps coder (puts' o) sent' o y x (x.mail (p.served m)) (p.reads o))
    : t.InPlay coder puts' sent' (p.step coder m) where
  staged := hstaged
  within := hwithin
  present o y hy := by
    rcases h.present o y hy with ⟨x, hx⟩
    rcases Party.remains_step coder m hx with ⟨x', hx', _⟩
    exact ⟨x', hx'⟩
  player o x' hx' := by
    rcases Party.players_step_cases hactor hx' with ⟨rfl, x, hx, rfl⟩ | ⟨hne, hx⟩
    . rcases h.player o x hx with ⟨y, hy, hkeeps⟩
      exact ⟨y, hy, hself x y hx hy hkeeps⟩
    . rcases h.player o x' hx with ⟨y, hy, hkeeps⟩
      rw [Party.reads_step_of_ne hactor hne]
      exact ⟨y, hy, hother o x' y hne hx hy hkeeps⟩

omit [Inhabited β] in
theorem Keeps.put (hcoder : coder.Lawful) {n h : Nat} {y x : Player β} {mail : List IncomingEvent}
    {reads : Port → Nat} (hk : t.Keeps coder n sent h y x mail reads) (hy : t.seats[h]? = some y)
    (hlt : n < t.frames) {updates : List (ButtonUpdate β)}
    (hports : (updates.map (·.port)).Perm x.game.localPorts.toList)
    (hupdates : ∀ u ∈ updates, u.frame.toInt = n ∧ u.buttons = t.input h n u.port)
    : (x.game.put coder updates).result = .ok () ∧
        t.Keeps coder (n + 1) sent h y (x.put coder updates) mail reads := by
  rcases hk.supplied with ⟨seen, told, hsupplied, hfollows⟩
  have howns : x.ownsAll updates = true := by
    unfold Player.ownsAll
    rw [List.all_eq_true]
    intro u hu
    rw [← PortSet.mem_toList, ← hports.mem_iff]
    exact List.mem_map_of_mem hu
  have hfits := t.fits h y hy
  rw [hk.remains.seat.localPorts] at hports
  rcases hsupplied.put hcoder t.apart hy hk.remains.seat hports hupdates (by omega) with
    ⟨keys, hresult, hsent, htells, hsupplied'⟩
  refine ⟨hresult, ?_⟩
  unfold Player.put
  rw [if_pos howns]
  dsimp only
  rw [hsent]
  refine ⟨hk.remains.trans ⟨rfl, ?_⟩, hk.stream, hk.queued.concat htells,
    seen, told, hsupplied', hfollows⟩
  rw [Game.put_game]
  exact ⟨rfl, rfl, rfl⟩

theorem InPlay.put (hcoder : coder.Lawful) (h : t.InPlay coder puts sent p) {x : Player β}
    (hx : p.players[a]? = some x) (hlt : puts a < t.frames) {updates : List (ButtonUpdate β)}
    (hports : (updates.map (·.port)).Perm x.game.localPorts.toList)
    (hupdates : ∀ u ∈ updates, u.frame.toInt = puts a ∧ u.buttons = t.input a (puts a) u.port)
    : (x.game.put coder updates).result = .ok () ∧
        t.InPlay coder (bump puts a) sent (p.step coder (.put a updates)) := by
  have hmover : p.mover? (.put a updates) = some (a, x) :=
    Party.mover?_eq_some_iff.2 ⟨rfl, hx⟩
  have hop : p.operation? (.put a updates) = none := by
    simp [Party.operation?, hmover, Player.operation?]
  have hserved : p.served (.put a updates) = p.server := Party.served_of_none hop
  rcases h.player a x hx with ⟨y, hy, hk⟩
  rcases hk.put hcoder hy hlt hports hupdates with ⟨hresult, hk'⟩
  refine ⟨hresult, ?_⟩
  have hreads : (p.step coder (.put a updates)).reads a = p.reads a := by
    funext port
    rw [Party.reads_step]
    unfold Party.observed
    rw [hmover]
    dsimp [Player.observed]
    rw [Observation.countP_stored, Nat.add_zero]
  apply h.step_of rfl
  . rw [hserved]
    exact h.staged
  . intro o
    unfold bump
    split
    . next heq =>
      rw [heq]
      exact hlt
    . exact h.within o
  . intro x' y' hx' hy' _
    rw [hx, Option.some.injEq] at hx'
    rw [hy, Option.some.injEq] at hy'
    subst hx' hy'
    rw [hserved, hreads, bump_self]
    have hmail : (x.put coder updates).mail p.server = x.mail p.server := by
      unfold Player.mail
      rw [hk'.stream, hk.stream]
    show t.Keeps coder _ sent a y (x.put coder updates) ((x.put coder updates).mail p.server) _
    rw [hmail]
    exact hk'
  . intro o x' y' hne _ _ hkeeps
    rw [hserved, bump_of_ne hne]
    exact hkeeps

omit [Inhabited β] in
theorem Keeps.deliver {n h : Nat} {y x : Player β} {mail rest : List IncomingEvent}
    {reads : Port → Nat} (hk : t.Keeps coder n sent h y x (mail ++ rest) reads)
    : t.Keeps coder n sent h y { x with game := x.game.deliver mail } rest reads := by
  rcases hk.supplied with ⟨seen, told, hsupplied, hfollows⟩
  rcases hfollows.split with ⟨mid, hleft, hright⟩
  exact ⟨hk.remains.trans ⟨rfl, rfl, rfl, rfl⟩, hk.stream, hk.queued,
    seen, mid, hsupplied.deliver hleft, hright⟩

theorem Keeps.get {n h : Nat} {y x : Player β} {mail : List IncomingEvent} {reads : Port → Nat}
    (hk : t.Keeps coder n sent h y x mail reads) (hy : t.seats[h]? = some y)
    (hsent : ∀ (o : Nat) (z : Player β), t.seats[o]? = some z → sent o ≤ t.frames)
    {o : Nat} {z : Player β} (hz : t.seats[o]? = some z) {port : Port}
    (hport : z.game.localPorts.contains port = true) {frame : Int32}
    (hframe : frame.toInt = reads port)
    (hknown : reads port < z.emulator.delay.toInt + (if o = h then n else sent o : Nat))
    : (∃ out, x.game.get? coder port frame = some out ∧
        out.result = .ok (z.buttonsAt (t.input o) port frame) ∧
        t.Keeps coder n sent h y { x with game := out.game } mail (readUp reads port)) ∨
      (x.game.get? coder port frame = none ∧
        (x.game.deliver mail).Gives coder port frame (z.buttonsAt (t.input o) port frame)) := by
  rcases hk.supplied with ⟨seen, told, hsupplied, hfollows⟩
  have hfits : ∀ (o : Nat) (z : Player β), t.seats[o]? = some z →
      sent o + z.emulator.delay.toInt < 0x80000000 := by
    intro o z hz
    have := hsent o z hz
    have := t.fits o z hz
    omega
  have hmax : ∀ (o : Nat) (z : Player β), o ≠ h → t.seats[o]? = some z →
      told o + z.emulator.delay.toInt < 0x80000000 := by
    intro o z hne hz
    have := hfits o z hz
    have := hfollows.le hne
    omega
  have hown : o = h → reads port < z.emulator.delay.toInt + n := by
    intro heq
    rw [if_pos heq] at hknown
    exact hknown
  have hlocal := hk.remains.seat.localPorts
  unfold Player.buttonsAt
  rw [hframe]
  -- A frame that did not arrive yet is told about by an event in the mailbox.
  rcases hsupplied.get? t.apart hmax hy hlocal hz hport hframe hown with
    ⟨hnone, hne, _⟩ | ⟨out, seen', hsome, hresult, hseat, hsupplied'⟩
  . right
    refine ⟨hnone, ?_⟩
    rw [if_neg hne] at hknown
    rcases (hsupplied.deliver hfollows).get? t.apart (fun o z _ => hfits o z) hy hlocal hz hport hframe
      hown with ⟨_, _, hlate⟩ | ⟨out, _, hsome, hresult, _⟩
    . omega
    . exact ⟨out, hsome, hresult⟩
  . left
    exact ⟨out, hsome, hresult, hk.remains.trans ⟨rfl, hseat⟩, hk.stream, hk.queued,
      seen', told, hsupplied', hfollows⟩

omit [Inhabited β] in
theorem InPlay.sent_le (h : t.InPlay coder puts sent p) {o : Nat} {y : Player β}
    (hy : t.seats[o]? = some y) : sent o ≤ t.frames := by
  rcases h.present o y hy with ⟨x, hx⟩
  rcases h.player o x hx with ⟨_, _, hk⟩
  have := hk.queued.length
  have := h.within o
  omega

theorem InPlay.get (h : t.InPlay coder puts sent p) {x : Player β} (hx : p.players[a]? = some x)
    {o : Nat} {z : Player β} (hz : t.seats[o]? = some z) {port : Port}
    (hport : z.game.localPorts.contains port = true) {frame : Int32}
    (hframe : frame.toInt = p.reads a port)
    (hknown : p.reads a port < z.emulator.delay.toInt + (if o = a then puts a else sent o : Nat))
    : (x.game.Gives coder port frame (z.buttonsAt (t.input o) port frame) ∨
        (x.game.get? coder port frame = none ∧
          (x.game.deliver (x.mail p.server)).Gives coder port frame
            (z.buttonsAt (t.input o) port frame))) ∧
      t.InPlay coder puts sent (p.step coder (.get a port frame)) := by
  have hmover : p.mover? (.get a port frame) = some (a, x) :=
    Party.mover?_eq_some_iff.2 ⟨rfl, hx⟩
  have hop : p.operation? (.get a port frame) = none := by
    simp [Party.operation?, hmover, Player.operation?]
  have hserved : p.served (.get a port frame) = p.server := Party.served_of_none hop
  have hobserved : p.observed coder (.get a port frame)
      = ((x.given coder port frame).map (.obtained a port frame)).toList := by
    unfold Party.observed
    rw [hmover]
    rfl
  -- Whatever the call gives, the one who asks is the only one to change.
  have hstep : ∀ {x' : Player β}, x.get coder port frame = x' → x'.stream = x.stream →
      (∀ y, t.seats[a]? = some y → t.Keeps coder (puts a) sent a y x (x.mail p.server) (p.reads a) →
        t.Keeps coder (puts a) sent a y x' (x.mail p.server)
          ((p.step coder (.get a port frame)).reads a)) →
      t.InPlay coder puts sent (p.step coder (.get a port frame)) := by
    intro x' hget hstream hkeeps
    apply h.step_of rfl
    . rw [hserved]
      exact h.staged
    . exact h.within
    . intro x₀ y hx₀ hy hk
      rw [hx, Option.some.injEq] at hx₀
      subst hx₀
      have hact : x.act coder p.server (.get a port frame) = x' := hget
      have hmail : x'.mail p.server = x.mail p.server := by
        unfold Player.mail
        rw [hstream]
      rw [hserved, hact, hmail]
      exact hkeeps y hy hk
    . intro o x y _ _ _ hk
      rw [hserved]
      exact hk
  rcases h.player a x hx with ⟨y, hy, hk⟩
  rcases hk.get hy (fun o z hz => h.sent_le hz) hz hport hframe hknown with
    ⟨out, hsome, hresult, hk'⟩ | ⟨hnone, hgives⟩
  . refine ⟨Or.inl ⟨out, hsome, hresult⟩, ?_⟩
    have hget : x.get coder port frame = { x with game := out.game } := by
      unfold Player.get
      rw [hsome]
    apply hstep hget rfl
    intro y' hy' _
    rw [hy, Option.some.injEq] at hy'
    subst hy'
    have hreads : (p.step coder (.get a port frame)).reads a = readUp (p.reads a) port := by
      funext port'
      rw [Party.reads_step, hobserved]
      unfold Player.given readUp
      rw [hsome]
      by_cases heq : port' = port
      . simp [hresult, heq, Observation.isRead, Except.toOption]
      . simp [hresult, heq, Ne.symm heq, Observation.isRead]
    rw [hreads]
    exact hk'
  . refine ⟨Or.inr ⟨hnone, hgives⟩, ?_⟩
    have hget : x.get coder port frame = x := by
      unfold Player.get
      rw [hnone]
    apply hstep hget rfl
    intro y' hy' hk'
    have hreads : (p.step coder (.get a port frame)).reads a = p.reads a := by
      funext port'
      rw [Party.reads_step, hobserved]
      unfold Player.given
      rw [hnone]
      simp
    rw [hreads]
    exact hk'

omit [Inhabited β] in
theorem Staged.separate {s : Server} {k : Nat} (hs : t.Staged s k) {o o' : Nat} {y y' : Player β}
    {i : Nat} (hy : t.seats[o]? = some y) (hy' : t.seats[o']? = some y') (hi : y.stream = some i)
    (hi' : y'.stream = some i) : o = o' := by
  rcases hs.console with ⟨c, hc, hmembers, _⟩
  rcases t.member o y hy with ⟨m, j, hm, _, hj, hstream⟩
  rcases t.member o' y' hy' with ⟨m', j', hm', _, hj', hstream'⟩
  rw [← hmembers] at hm hm'
  rw [hi] at hstream
  rw [hi'] at hstream'
  apply t.distinct o o' y y' hy hy'
  exact hs.consistent.separate hc hm hm' (hj.trans hstream.symm) (hj'.trans hstream'.symm)

theorem InPlay.deliver (h : t.InPlay coder puts sent p) (n : Nat) (hx : p.players[a]?.isSome)
    : t.InPlay coder puts sent (p.step coder (.deliver a n)) := by
  rcases Option.isSome_iff_exists.1 hx with ⟨x, hx⟩
  rcases h.player a x hx with ⟨y, hy, hk⟩
  rcases t.member a y hy with ⟨_, i, _, _, _, hi⟩
  have hstream : x.stream = some i := hk.stream.trans hi
  have hmover : p.mover? (.deliver a n) = some (a, x) := Party.mover?_eq_some_iff.2 ⟨rfl, hx⟩
  have hop : p.operation? (.deliver a n) = some (.take i n) := by
    simp [Party.operation?, hmover, Player.operation?, hstream]
  have hserved : p.served (.deliver a n) = (p.server.take i n).2 := Party.served_of_operation? hop
  apply h.step_of rfl
  . rw [hserved]
    constructor
    . exact Server.consistent_step h.staged.consistent (.take i n)
    . exact h.staged.console
    . intro o z j hz hj
      rcases h.staged.box o z j hz hj with ⟨b, hb, hreader⟩
      have := Mailroom.getElem?_take p.server.room i n j
      rw [hb] at this
      split at this
      . exact ⟨_, this, hreader⟩
      . exact ⟨b, this, hreader⟩
  . exact h.within
  . intro x' y' hx' hy' _
    rw [hx, Option.some.injEq] at hx'
    rw [hy, Option.some.injEq] at hy'
    subst hx' hy'
    have hact : x.act coder p.server (.deliver a n)
        = { x with game := x.game.deliver (p.server.take i n).1 } := by
      simp [Player.act, Player.deliver, hstream]
    have hreads : (p.step coder (.deliver a n)).reads a = p.reads a := by
      funext port
      rw [Party.reads_step]
      unfold Party.observed
      rw [hmover]
      rfl
    rw [hserved, hact, hreads]
    apply Keeps.deliver
    have hmail : x.mail p.server = (p.server.take i n).1 ++ (p.server.take i n).2.room.pending i := by
      unfold Player.mail
      rw [hstream]
      exact (Mailroom.take_append_pending p.server.room i n).symm
    unfold Player.mail
    rw [hstream]
    dsimp only
    rw [← hmail]
    exact hk
  . -- Nobody else reads the mailbox that the events are taken from.
    intro o x' y' hne hx' hy' hk'
    rcases t.member o y' hy' with ⟨_, j, _, _, _, hj⟩
    have hstream' : x'.stream = some j := hk'.stream.trans hj
    have hij : i ≠ j := by
      intro heq
      subst heq
      exact hne (h.staged.separate hy' hy hj hi)
    have hmail : x'.mail (p.served (.deliver a n)) = x'.mail p.server := by
      unfold Player.mail
      rw [hstream', hserved]
      exact Mailroom.pending_take_of_ne p.server.room hij n
    rw [hmail]
    exact hk'

omit [Inhabited β] in
theorem firstRefusal?_of_about {m : Member} {input : Nat → Port → β} {y : Player β} {n : Nat}
    (hports : m.ports = y.game.localPorts) {keys : List KeyState}
    (hkeys : ∀ key ∈ keys, About coder input y n key)
    : m.firstRefusal? y.game.consoleId keys = none := by
  induction keys with
  | nil => rfl
  | cons key rest ih =>
    have habout := hkeys key List.mem_cons_self
    unfold Member.firstRefusal? Member.owns
    dsimp only
    rw [if_neg (by simp [habout.consoleId]), hports, habout.port, if_neg (by simp)]
    exact ih fun key' hkey' => hkeys key' (List.mem_cons_of_mem _ hkey')

omit [Inhabited β] in
theorem Staged.relays {s : Server} {k : Nat} (hs : t.Staged s k) {y : Player β}
    (hy : t.seats[a]? = some y) {i n : Nat} (hi : y.stream = some i) {keys : List KeyState}
    (htells : Tells coder (t.input a) y n keys)
    (hroom : ∀ (o : Nat) (z : Player β) (j : Nat) (b : Mailbox), o ≠ a → t.seats[o]? = some z →
      z.stream = some j → s.room.boxes[j]? = some b → b.pending.length < b.capacity)
    : t.Staged (s.receive i { keys := keys }) k ∧
        (s.receive i { keys := keys }).room.boxes[i]? = s.room.boxes[i]? ∧
        ∀ (o : Nat) (z : Player β) (j : Nat) (b : Mailbox), o ≠ a → t.seats[o]? = some z →
          z.stream = some j → s.room.boxes[j]? = some b →
            (s.receive i { keys := keys }).room.boxes[j]? = some (Server.append b { keys := keys }) := by
  rcases hs.console with ⟨c, hc, hmembers, hid⟩
  rcases t.member a y hy with ⟨m, _, hm, hports, hmailbox, hstream⟩
  rw [hi, Option.some.injEq] at hstream
  subst hstream
  rcases t.apart.port a y hy with ⟨port, hport⟩
  rcases htells.mem_iff.2 hport with ⟨key, hkey, _⟩
  -- There is a key for every port of the sender, hence at least one, and none is refused.
  have hok : m.firstRefusal? c.id keys = none := by
    rw [hid, ← t.sameConsole a y hy]
    exact firstRefusal?_of_about hports htells.about
  have hrelays := Server.relays_receive hs.consistent hc (hmembers ▸ hm) hmailbox
    (e := { keys := keys }) rfl (List.ne_nil_of_mem hkey) hok (by
      intro id' m' j hne hm' hj
      rw [hmembers] at hm'
      rcases t.seat id' m' hm' with ⟨_, o, z, hz, rfl⟩
      rcases t.member o z hz with ⟨_, _, hm₁, _, hj₁, hstream⟩
      rw [hm', Option.some.injEq] at hm₁
      subst hm₁
      rw [hj, Option.some.injEq] at hj₁
      subst hj₁
      rcases hs.box o z j hz hstream with ⟨b, hb, hreader⟩
      refine ⟨b, hb, hreader, hroom o z j b ?_ hz hstream hb⟩
      intro heq
      subst heq
      rw [hy, Option.some.injEq] at hz
      exact hne (hz ▸ rfl))
  have hsender := hrelays.sender m i (hmembers ▸ hm) hmailbox
  have hother : ∀ (o : Nat) (z : Player β) (j : Nat) (b : Mailbox), o ≠ a → t.seats[o]? = some z →
      z.stream = some j → s.room.boxes[j]? = some b →
        (s.receive i { keys := keys }).room.boxes[j]? = some (Server.append b { keys := keys }) := by
    intro o z j b hne hz hj hb
    rcases t.member o z hz with ⟨m', j', hm', _, hj', hstream'⟩
    rw [hj, Option.some.injEq] at hstream'
    subst hstream'
    apply hrelays.other z.game.clientId m' j b ?_ (hmembers ▸ hm') hj' hb
    intro heq
    exact hne (t.distinct o a z y hz hy heq)
  refine ⟨⟨Server.consistent_step hs.consistent (.receive i { keys := keys }), ?_, ?_⟩, hsender, hother⟩
  . rcases hrelays.console with ⟨c', hc', hmembers', hid'⟩
    exact ⟨c', hc', hmembers'.trans hmembers, hid'.trans hid⟩
  . intro o z j hz hj
    rcases hs.box o z j hz hj with ⟨b, hb, hreader⟩
    by_cases heq : o = a
    . subst heq
      rw [hy, Option.some.injEq] at hz
      subst hz
      rw [hi, Option.some.injEq] at hj
      subst hj
      exact ⟨b, hsender.trans hb, hreader⟩
    . exact ⟨_, hother o z j b heq hz hj hb, hreader⟩

theorem InPlay.transmit (h : t.InPlay coder puts sent p)
    (hroom : ∀ (o : Nat) (x : Player β) (i : Nat) (b : Mailbox), o ≠ a → p.players[o]? = some x →
      x.stream = some i → p.server.room.boxes[i]? = some b → b.pending.length < b.capacity)
    {x : Player β} (hx : p.players[a]? = some x)
    : ∃ sent', t.InPlay coder puts sent' (p.step coder (.transmit a)) := by
  rcases h.player a x hx with ⟨y, hy, hk⟩
  rcases t.member a y hy with ⟨_, i, _, _, _, hi⟩
  have hstream : x.stream = some i := hk.stream.trans hi
  have hmover : p.mover? (.transmit a) = some (a, x) := Party.mover?_eq_some_iff.2 ⟨rfl, hx⟩
  have hreads : (p.step coder (.transmit a)).reads a = p.reads a := by
    funext port
    rw [Party.reads_step]
    unfold Party.observed
    rw [hmover]
    rfl
  have hqueued := hk.queued
  cases houtbox : x.outbox with
  | nil =>
    have hop : p.operation? (.transmit a) = none := by
      simp [Party.operation?, hmover, Player.operation?, Player.outgoing?, hstream, houtbox]
    have hact : x.act coder p.server (.transmit a) = x := by
      simp [Player.act, Player.transmitted, Player.outgoing?, hstream, houtbox]
    have hserved : p.served (.transmit a) = p.server := Party.served_of_none hop
    refine ⟨sent, h.step_of rfl (hserved ▸ h.staged) h.within ?_ ?_⟩
    . intro x' y' hx' _ hk'
      rw [hx, Option.some.injEq] at hx'
      subst hx'
      rw [hact, hreads, hserved]
      exact hk'
    . intro o x' y' _ _ _ hk'
      rw [hserved]
      exact hk'
  | cons e rest =>
    rw [houtbox] at hqueued
    cases hqueued with
    | @cons _ _ keys _ htells hrest =>
      have hop : p.operation? (.transmit a) = some (.receive i { keys := keys }) := by
        simp [Party.operation?, hmover, Player.operation?, Player.outgoing?, hstream, houtbox]
      have hact : x.act coder p.server (.transmit a) = { x with outbox := rest } := by
        simp [Player.act, Player.transmitted, Player.outgoing?, hstream, houtbox]
      have hserved : p.served (.transmit a) = p.server.receive i { keys := keys } :=
        Party.served_of_operation? hop
      have hrelays := h.staged.relays hy hi htells (by
        intro o z j b hne hz hj hb
        rcases h.present o z hz with ⟨x', hx'⟩
        rcases h.player o x' hx' with ⟨y', hy', hk'⟩
        rw [hz, Option.some.injEq] at hy'
        subst hy'
        exact hroom o x' j b hne hx' (hk'.stream.trans hj) hb)
      rcases hrelays with ⟨hstaged, hsender, hother⟩
      rcases hk.supplied with ⟨seen, told, hsupplied, hfollows⟩
      -- One more frame of player `a` is on its way: its outbox starts later, and the mailboxes of all
      -- others end later.
      refine ⟨bump sent a, h.step_of rfl (hserved ▸ hstaged) h.within ?_ ?_⟩
      . intro x' y' hx' hy' _
        rw [hx, Option.some.injEq] at hx'
        rw [hy, Option.some.injEq] at hy'
        subst hx' hy'
        rw [hact, hreads, hserved]
        refine ⟨hk.remains.trans ⟨rfl, .refl _⟩, hk.stream, ?_, seen, told, hsupplied, ?_⟩
        . rw [bump_self]
          exact hrest
        . have hmail : Player.mail (p.server.receive i { keys := keys }) { x with outbox := rest }
              = x.mail p.server := by
            simp [Player.mail, Mailroom.pending, hstream, hsender]
          rw [hmail]
          exact hfollows.congr_right fun _ hne => bump_of_ne hne
      . intro o x' y' hne _ hy' hk'
        rcases hk'.supplied with ⟨seen', told', hsupplied', hfollows'⟩
        rcases t.member o y' hy' with ⟨_, j, _, _, _, hj⟩
        have hstream' : x'.stream = some j := hk'.stream.trans hj
        rcases h.staged.box o y' j hy' hj with ⟨b, hb, _⟩
        have hmail : x'.mail (p.server.receive i { keys := keys })
            = x'.mail p.server ++ [{ keys := keys }] := by
          simp [Player.mail, Mailroom.pending, hstream', hother o y' j b hne hy' hj hb, hb,
            Server.append]
        rw [hserved]
        refine ⟨hk'.remains, hk'.stream, ?_, seen', told', hsupplied', ?_⟩
        . rw [bump_of_ne hne]
          exact hk'.queued
        . rw [hmail]
          exact hfollows'.concat hne.symm hy htells

theorem InPlay.serve (h : t.InPlay coder puts sent p) {op : Server.Operation}
    (hop : p.Ignores op) : t.InPlay coder puts sent (p.step coder (.serve op)) := by
  have hconsistent : (p.served (.serve op)).Consistent := by
    unfold Party.served
    split
    . exact h.staged.consistent
    . exact Server.consistent_step h.staged.consistent _
  have hconsole : (p.served (.serve op)).lobby.console? p.console
      = p.server.lobby.console? p.console := by
    unfold Party.served Party.operation?
    dsimp only
    cases p.permits op with
    | false => rfl
    | true => exact hop.1
  have hbox : ∀ (o : Nat) (x : Player β) (i : Nat), p.players[o]? = some x → x.stream = some i →
      (p.served (.serve op)).room.boxes[i]? = p.server.room.boxes[i]? := by
    intro o x i hx hi
    unfold Party.served Party.operation?
    dsimp only
    cases p.permits op with
    | false => rfl
    | true => exact hop.2 o x i hx hi
  have hplayers : (p.step coder (.serve op)).players = p.players :=
    List.append_nil p.players
  have hreads : ∀ o, (p.step coder (.serve op)).reads o = p.reads o := by
    intro o
    funext port
    rw [Party.reads_step]
    rfl
  constructor
  . refine ⟨hconsistent, ?_, ?_⟩
    . rcases h.staged.console with ⟨c, hc, hsame⟩
      exact ⟨c, hconsole.trans hc, hsame⟩
    . intro o y i hy hi
      rcases h.staged.box o y i hy hi with ⟨b, hb, hreader⟩
      rcases h.present o y hy with ⟨x, hx⟩
      rcases h.player o x hx with ⟨y', hy', hk⟩
      rw [hy, Option.some.injEq] at hy'
      subst hy'
      exact ⟨b, (hbox o x i hx (hk.stream.trans hi)).trans hb, hreader⟩
  . exact h.within
  . rw [hplayers]
    exact h.present
  . intro o x hx
    rw [hplayers] at hx
    rcases h.player o x hx with ⟨y, hy, hk⟩
    have hmail : x.mail (p.served (.serve op)) = x.mail p.server := by
      unfold Player.mail
      cases hi : x.stream with
      | none => rfl
      | some i =>
        dsimp only
        unfold Mailroom.pending
        rw [hbox o x i hx hi]
    refine ⟨y, hy, ?_⟩
    show t.Keeps coder (puts o) sent o y x (x.mail (p.served (.serve op))) _
    rw [hmail, hreads]
    exact hk

end Step

end Table
end PadRelay
