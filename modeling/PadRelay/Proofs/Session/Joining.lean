import PadRelay.Proofs.Server.Directory
import PadRelay.Proofs.Session.Entry

/-!
This module contains what becomes of a session that joins a game: when it gets onto a console, what the
server is afterwards, and what is left on the server if it does not get there.
-/

namespace PadRelay
namespace Session

variable {β : Type} {config : ClientConfig} {s : Server} {k : Nat} {c : Console}

/-- Nobody was plugged in and no stream was opened. At most there is one more console, without members. -/
structure Spares (s s' : Server) : Prop where
  console? : ∀ j c, s.lobby.console? j = some c → s'.lobby.console? j = some c
  listed : s'.lobby.listed = s.lobby.listed ∨
    ∃ new : Option Console, s'.lobby.listed = s.lobby.unfinished ++ new.toList ∧
      ∀ c ∈ new, c.members = ∅
  claim? : ∀ j id, s'.claim? j id = s.claim? j id
  clientIds : s'.lobby.clientIds = s.lobby.clientIds
  streams : s'.streams = s.streams
  room : s'.room = s.room

/-- A console can be opened. -/
def HasRoom (s : Server) : Prop :=
  ∀ n, s.lobby.limit = some n → s.lobby.unfinished.length < n

/--
The console at position `k` of the server `base` is the one that a session is to join. If none is
configured it is made for the session.
-/
inductive Aims (config : ClientConfig) (s : Server) : Server → Nat → Console → Prop
  | found {id : Int64} {k : Nat} {c : Console} : config.consoleId = some id →
    s.lobby.lookup? ⟨id⟩ = some (k, c) → Aims config s s k c
  | made : config.consoleId = none → HasRoom s →
    Aims config s { s with lobby := s.lobby.opened consoleTitle "" config.romHash }
      s.lobby.consoles.length
      { id := ⟨s.lobby.consoleIds.next⟩, title := consoleTitle, romHash := config.romHash }

/-- What can become of a session, and of the server. -/
inductive Joins (config : ClientConfig) (s : Server) : Except ClientError (Session β) → Server → Prop
  | entered {base after : Server} {k : Nat} {c : Console} {session : Session β} :
    Aims config s base k c → c.Admits config.romHash config.ports →
    session.createdConsole = config.consoleId.isNone → Entered config base k c session after →
    Joins config s (.ok session) after
  | rejected {base : Server} {k : Nat} {c : Console} {status : PlugStatus} :
    Aims config s base k c → c.TurnsAway config.romHash config.ports status →
    Joins config s (.error (.plugRejected status)) base
  | unknown {id : Int64} : config.consoleId = some id → s.lobby.lookup? ⟨id⟩ = none →
    Joins config s (.error (.plugRejected .unspecifiedFailure)) s
  | full {n : Nat} : config.consoleId = none → s.lobby.limit = some n →
    n ≤ s.lobby.unfinished.length →
    Joins config s (.error (.makeConsoleFailed .unspecifiedFailure))
      { s with lobby := s.lobby.removeFinished }

/-- The condition for a session to get onto a console. -/
def Welcome (config : ClientConfig) (s : Server) : Prop :=
  match config.consoleId with
  | none => HasRoom s ∧ (named config.ports).Nodup
  | some id => ∃ k c, s.lobby.lookup? ⟨id⟩ = some (k, c) ∧ c.Admits config.romHash config.ports

/-- The bookkeeping of a server is in order after `n` requests for ports, and its counters may go on. -/
structure Orderly (n : Nat) (s : Server) : Prop where
  allotted : s.Allotted n
  numbered : s.lobby.Numbered
  few : s.lobby.consoles.length < 0x7fffffffffffffff

section Join

variable {n : Nat} {base : Server}

theorem spares_refl (s : Server) : Spares s s :=
  ⟨fun _ _ hc => hc, Or.inl rfl, fun _ _ => rfl, rfl, rfl, rfl⟩

theorem spares_removeFinished (s : Server) : Spares s { s with lobby := s.lobby.removeFinished } where
  console? j c hc := by
    rw [Lobby.console?_removeFinished, hc]
  listed := Or.inr ⟨none, by simp [(Lobby.prunes_removeFinished s.lobby).listed], by simp⟩
  claim? j id := by
    unfold Server.claim?
    rw [Lobby.console?_removeFinished]
  clientIds := rfl
  streams := rfl
  room := rfl

theorem makeConsole_of_hasRoom (h : HasRoom s) (title romHash : String)
    : s.makeConsole { title, romHash }
        =
      ({ status := Enumeration.number MakeConsoleStatus.success
         consoleId := s.lobby.consoleIds.next },
        { s with lobby := s.lobby.opened title "" romHash }) := by
  unfold Server.makeConsole
  rcases Lobby.create_cases s.lobby title "" romHash with ⟨⟨n, hn, hfull⟩, _⟩ | ⟨_, heq⟩
  . have := h n hn
    omega
  . dsimp only
    rw [heq]

theorem Orderly.few_plugs (hs : Orderly n s) : n < 0x7fffffffffffffff := by
  have := hs.allotted.next
  have := Int64.toInt_lt s.lobby.clientIds.next
  omega

/-- Making a console is a step of the server that serves no request for ports. -/
theorem orderly_opened (hs : Orderly n s) (hroom : HasRoom s) (title romHash : String)
    : let base : Server := { s with lobby := s.lobby.opened title "" romHash }
      base.Allotted n ∧ s.Preserves base := by
  let op : Server.Operation := .makeConsole { title, romHash }
  have hstep : s.step op = { s with lobby := s.lobby.opened title "" romHash } :=
    congrArg (·.2) (makeConsole_of_hasRoom hroom title romHash)
  have hallotted := Server.allotted_step hs.allotted op hs.few_plugs
  have hserved : s.served op = false := rfl
  have hpreserves := Server.preserves_step hs.allotted.consistent hserved
  rw [hstep] at hallotted hpreserves
  exact ⟨hallotted, hpreserves⟩

theorem Aims.spares (h : Aims config s base k c) (hs : Orderly n s) : Spares s base := by
  cases h with
  | found _ _ => exact spares_refl s
  | made _ hroom =>
    have hpreserves := (orderly_opened hs hroom consoleTitle config.romHash).2
    refine ⟨?_, Or.inr ⟨some _, Lobby.listed_opened hs.numbered hs.few _ _ _, ?_⟩,
      hpreserves.claim?, hpreserves.clientIds, rfl, rfl⟩
    . intro j c hc
      have hlt := Lobby.lt_length_of_console? hc
      rw [Lobby.console?_opened, if_neg (by omega), hc]
    . rintro _ ⟨⟩
      rfl

/-- The console can be found, and it has an identifier that an emulator accepts. -/
theorem Aims.found_valid (h : Aims config s base k c) (hs : Orderly n s) (hconfig : config.Sound)
    : base.Allotted n ∧ base.lobby.lookup? c.id = some (k, c) ∧ c.id.isValid = true := by
  cases h with
  | found hid hlookup =>
    have hc := Lobby.lookup?_eq_some hlookup
    rw [hc.2]
    exact ⟨hs.allotted, hlookup, decide_eq_true (hconfig.console _ hid)⟩
  | made _ hroom =>
    refine ⟨(orderly_opened hs hroom consoleTitle config.romHash).1,
      (Lobby.opens_opened hs.numbered hs.few consoleTitle "" config.romHash).lookup?, ?_⟩
    unfold ConsoleId.isValid
    rw [decide_eq_true_eq, Int64.lt_iff_toInt_lt, Int64.toInt_zero, hs.numbered.next,
      IdSource.toInt_nth hs.few]
    omega

/-- The session goes on with the console that it is to join. -/
theorem Aims.joins (h : Aims config s base k c) (hs : Orderly n s) (hconfig : config.Sound)
    : let r := plugAndEnter (β := β) (config.emulator c.id) config.ports config.consoleId.isNone base
      Joins config s r.1 r.2 := by
  rcases h.found_valid hs hconfig with ⟨hallotted, hlookup, hvalid⟩
  rcases c.admits_or_turnsAway config.romHash config.ports with hadmits | ⟨status, haway⟩
  . rcases plugAndEnter_of_admits (β := β) hallotted hconfig hlookup hvalid hadmits
      config.consoleId.isNone with ⟨session, after, heq, hcreated, hentered⟩
    rw [heq]
    exact .entered h hadmits hcreated hentered
  . dsimp only
    rw [plugAndEnter_of_turnsAway hconfig hlookup haway]
    exact .rejected h haway

theorem chooseConsole_of_hasRoom (hid : config.consoleId = none) (hroom : HasRoom s)
    : chooseConsole config s
        =
      (.ok (⟨s.lobby.consoleIds.next⟩, true),
        { s with lobby := s.lobby.opened consoleTitle "" config.romHash }) := by
  unfold chooseConsole
  rw [hid]
  dsimp only
  rw [makeConsole_of_hasRoom hroom]
  rfl

theorem chooseConsole_of_full {limit : Nat} (hid : config.consoleId = none)
    (hlimit : s.lobby.limit = some limit) (hfull : limit ≤ s.lobby.unfinished.length)
    : chooseConsole config s
        =
      (.error (.makeConsoleFailed .unspecifiedFailure),
        { s with lobby := s.lobby.removeFinished }) := by
  unfold chooseConsole
  rw [hid]
  dsimp only
  unfold Server.makeConsole
  rcases Lobby.create_cases s.lobby consoleTitle "" config.romHash with ⟨_, heq⟩ | ⟨hroom, _⟩
  . dsimp only
    rw [heq]
    rfl
  . have := hroom limit hlimit
    omega

theorem join_eq {l : Listener} (henabled : config.enabled = true)
    (hcount : ¬ (config.ports.length = 0 ∨ maxPorts < config.ports.length))
    (hreached : l.connect ⟨config.serverHostname, config.serverPort⟩ = .ok ())
    : join (β := β) config l
        =
      match chooseConsole config l.server with
      | (.error e, server) => (.error e, { l with server })
      | (.ok (consoleId, created), server) =>
        let r := plugAndEnter (config.emulator consoleId) config.ports created server
        (r.1, { l with server := r.2 }) := by
  unfold join
  dsimp only
  rw [if_neg (by simp [henabled]), if_neg hcount, hreached]
  rfl

theorem join_of_faulty {e : ClientError} {l : Listener} (h : config.Faulty e)
    (hreached : l.connect ⟨config.serverHostname, config.serverPort⟩ = .ok ())
    : join (β := β) config l = (.error e, l) := by
  cases h with
  | disabled henabled =>
    unfold join
    simp [henabled]
  | ports henabled hcount =>
    unfold join
    dsimp only
    rw [if_neg (by simp [henabled]), if_pos hcount]
  | console henabled hcount hid hneg =>
    rw [join_eq henabled hcount hreached]
    unfold chooseConsole
    rw [hid]
    dsimp only
    rw [if_neg hneg]

/-- A sound configuration leads to a console or at least to the attempt to make one. -/
theorem joins_join {l : Listener} (hs : Orderly n l.server) (hconfig : config.Sound)
    (hreached : l.connect ⟨config.serverHostname, config.serverPort⟩ = .ok ())
    : let r := join (β := β) config l
      Joins config l.server r.1 r.2.server ∧ r.2 = { l with server := r.2.server } := by
  rw [join_eq hconfig.enabled hconfig.count hreached]
  cases hid : config.consoleId with
  | some id =>
    have hchoose : chooseConsole config l.server = (.ok (⟨id⟩, false), l.server) := by
      unfold chooseConsole
      rw [hid]
      dsimp only
      rw [if_pos (hconfig.console id hid)]
    rw [hchoose]
    refine ⟨?_, rfl⟩
    dsimp only
    cases hlookup : l.server.lobby.lookup? ⟨id⟩ with
    | none =>
      rw [plugAndEnter_of_unknown hconfig hlookup]
      exact .unknown hid hlookup
    | some found =>
      have hjoins := (Aims.found hid hlookup).joins (β := β) hs hconfig
      rw [(Lobby.lookup?_eq_some hlookup).2, hid] at hjoins
      exact hjoins
  | none =>
    by_cases hroom : HasRoom l.server
    . have hjoins := (Aims.made hid hroom).joins (β := β) hs hconfig
      rw [hid] at hjoins
      rw [chooseConsole_of_hasRoom hid hroom]
      exact ⟨hjoins, rfl⟩
    . unfold HasRoom at hroom
      simp only [not_forall, Nat.not_lt] at hroom
      rcases hroom with ⟨limit, hlimit, hfull⟩
      rw [chooseConsole_of_full hid hlimit hfull]
      exact ⟨.full hid hlimit hfull, rfl⟩

theorem Aims.admits_iff (h : Aims config s base k c) (hconfig : config.Sound)
    : c.Admits config.romHash config.ports ↔ Welcome config s := by
  unfold Welcome
  cases h with
  | found hid hlookup =>
    rw [hid]
    constructor
    . exact fun hadmits => ⟨k, c, hlookup, hadmits⟩
    . rintro ⟨k', c', hlookup', hadmits⟩
      rw [hlookup, Option.some.injEq, Prod.mk.injEq] at hlookup'
      rw [hlookup'.2]
      exact hadmits
  | made hid hroom =>
    rw [hid]
    have hfits : Fits (Console.occupied { id := ⟨s.lobby.consoleIds.next⟩ }) config.ports ↔
        (named config.ports).Nodup := fits_iff_of_free (fun p => rfl) hconfig.few
    constructor
    . exact fun hadmits => ⟨hroom, hadmits.ports.distinct⟩
    . rintro ⟨_, hdistinct⟩
      exact ⟨rfl, fun hdiffers => hdiffers.2.2 rfl, hfits.2 hdistinct⟩

theorem Joins.welcome_iff {r : Except ClientError (Session β)} {after : Server}
    (h : Joins config s r after) (hconfig : config.Sound)
    : (∃ session, r = .ok session) ↔ Welcome config s := by
  cases h with
  | entered haims hadmits _ _ => exact ⟨fun _ => (haims.admits_iff hconfig).1 hadmits, fun _ => ⟨_, rfl⟩⟩
  | rejected haims haway =>
    rw [← haims.admits_iff hconfig]
    simp [haway.not_admits]
  | unknown hid hlookup => simp [Welcome, hid, hlookup]
  | full hid hlimit hfull =>
    have : ¬ HasRoom s := by
      intro hroom
      have := hroom _ hlimit
      omega
    simp [Welcome, hid, this]

/-- A session that finds its console gets onto it, or the console turns it away. -/
theorem Joins.of_lookup? {r : Except ClientError (Session β)} {after : Server} {id : Int64}
    (h : Joins config s r after) (hid : config.consoleId = some id)
    (hlookup : s.lobby.lookup? ⟨id⟩ = some (k, c))
    : (∃ session, r = .ok session ∧ c.Admits config.romHash config.ports ∧
        session.createdConsole = false ∧ Entered config s k c session after) ∨
      ∃ status, r = .error (.plugRejected status) ∧ c.TurnsAway config.romHash config.ports status ∧
        after = s := by
  have haimed : ∀ {base k' c'}, Aims config s base k' c' → base = s ∧ k' = k ∧ c' = c := by
    intro base k' c' haims
    cases haims with
    | found hid' hlookup' =>
      rw [hid, Option.some.injEq] at hid'
      rw [← hid', hlookup, Option.some.injEq, Prod.mk.injEq] at hlookup'
      exact ⟨rfl, hlookup'.1.symm, hlookup'.2.symm⟩
    | made hnone _ => simp [hid] at hnone
  cases h with
  | entered haims hadmits hcreated hentered =>
    rcases haimed haims with ⟨rfl, rfl, rfl⟩
    rw [hid] at hcreated
    exact Or.inl ⟨_, rfl, hadmits, hcreated, hentered⟩
  | rejected haims haway =>
    rcases haimed haims with ⟨rfl, rfl, rfl⟩
    exact Or.inr ⟨_, rfl, haway, rfl⟩
  | unknown hid' hnone =>
    rw [hid, Option.some.injEq] at hid'
    simp [← hid', hlookup] at hnone
  | full hnone _ _ => simp [hid] at hnone

theorem Joins.spares {e : ClientError} {after : Server}
    (h : Joins (β := β) config s (.error e) after) (hs : Orderly n s) : Spares s after := by
  cases h with
  | rejected haims _ => exact haims.spares hs
  | unknown _ _ => exact spares_refl s
  | full _ _ _ => exact spares_removeFinished s

end Join

theorem orderly_run (testMode : Bool) (limit : Option Nat) (ops : List Server.Operation)
    (hplugs : (Server.initial testMode limit).successfulPlugs ops < 0x7fffffffffffffff)
    (hconsoles : ((Server.initial testMode limit).run ops).lobby.consoles.length < 0x7fffffffffffffff)
    : Orderly (0 + (Server.initial testMode limit).successfulPlugs ops)
        ((Server.initial testMode limit).run ops) where
  allotted := Server.allotted_run (Server.allotted_initial testMode limit) ops (by omega)
  numbered := Server.numbered_run testMode limit ops
  few := hconsoles

/--
Whatever a server was asked for before, a session joins a game on it exactly if its configuration is sound
and the server has a console for it, on which the ports can be allotted that it wants. If it does not join
it leaves nothing behind but a console that was made for it.
-/
theorem joins_iff_welcome (testMode : Bool) (limit : Option Nat) (ops : List Server.Operation)
    (config : ClientConfig) {l : Listener}
    (hserver : l.server = (Server.initial testMode limit).run ops)
    (hreached : l.connect ⟨config.serverHostname, config.serverPort⟩ = .ok ())
    (hplugs : (Server.initial testMode limit).successfulPlugs ops < 0x7fffffffffffffff)
    (hconsoles : l.server.lobby.consoles.length < 0x7fffffffffffffff)
    : let r := join (β := β) config l
      (¬ config.Sound → ∃ e, config.Faulty e ∧ r = (.error e, l)) ∧
        (config.Sound →
          ((∃ session, r.1 = .ok session) ↔ Welcome config l.server) ∧
          Joins config l.server r.1 r.2.server ∧
          r.2 = { l with server := r.2.server } ∧
          (∀ base k c, Aims config l.server base k c → Spares l.server base) ∧
          ∀ e, r.1 = .error e → Spares l.server r.2.server) := by
  rw [hserver] at hconsoles
  have hs := orderly_run testMode limit ops hplugs hconsoles
  rw [← hserver] at hs
  intro r
  constructor
  . intro hfaulty
    rcases config.sound_or_faulty.resolve_left hfaulty with ⟨e, he⟩
    exact ⟨e, he, join_of_faulty he hreached⟩
  . intro hsound
    rcases joins_join (β := β) hs hsound hreached with ⟨hjoins, hsame⟩
    refine ⟨hjoins.welcome_iff hsound, hjoins, hsame, fun _ _ _ haims => haims.spares hs, ?_⟩
    intro e he
    exact Joins.spares (β := β) (he ▸ hjoins) hs

def hostAddress : Net.Endpoint :=
  ⟨"netplay.lan", defaultServerPort⟩

/-- A server on another machine, with a console on which the second port is taken. -/
def hosting : Listener where
  port := defaultServerPort
  server := (Server.initial false none).run Server.seat
  leadsHere e := e = hostAddress

def guest (requestedPorts : List PortRequest) : ClientConfig :=
  { serverHostname := hostAddress.host, consoleId := some 1, requestedPorts }

theorem sound_guest {requests : List PortRequest} (hsome : (guest requests).ports ≠ [])
    (hfew : (guest requests).ports.length ≤ maxPorts) : (guest requests).Sound where
  enabled := rfl
  ports := hsome
  few := hfew
  console := by
    rintro _ ⟨⟩
    decide

/-- One guest gets ports that are left. Another one wants the port that is taken and leaves no trace. -/
theorem joins_iff_welcome_guests
    : (∃ session : Session UInt32, (join (guest [.any, .port4]) hosting).1 = .ok session ∧
        session.emulator.clientId = ⟨2⟩ ∧ session.emulator.localPorts = [.one, .four] ∧
        session.createdConsole = false) ∧
      let r := join (β := UInt32) (guest [.port2]) hosting
      r.1 = .error (.plugRejected .portRequestRejected) ∧ r.2.server = hosting.server := by
  have hreached : ∀ requests, hosting.connect
      ⟨(guest requests).serverHostname, (guest requests).serverPort⟩ = .ok () := by
    intro requests
    show hosting.connect hostAddress = .ok ()
    decide +kernel
  have hlookup : hosting.server.lobby.lookup? ⟨1⟩ = some (0, Server.seated) := by decide +kernel
  have h := fun requests => joins_iff_welcome (β := UInt32) false none Server.seat (guest requests) rfl
    (hreached requests) (by decide +kernel) (by decide +kernel)
  constructor
  . have hsound : (guest [.any, .port4]).Sound := sound_guest (by decide) (by decide)
    have hadmits : Server.seated.Admits "" (guest [.any, .port4]).ports := by decide +kernel
    rcases ((h _).2 hsound).2.1.of_lookup? rfl hlookup with
      ⟨session, hsession, _, hcreated, hentered⟩ | ⟨_, _, haway, _⟩
    . refine ⟨session, hsession, ?_⟩
      rw [hentered.emulator, hcreated]
      decide +kernel
    . exact absurd hadmits haway.not_admits
  . have hsound : (guest [.port2]).Sound := sound_guest (by decide) (by decide)
    have htaken : ¬ Fits Server.seated.occupied (guest [.port2]).ports := by decide +kernel
    rcases ((h _).2 hsound).2.1.of_lookup? rfl hlookup with
      ⟨_, _, hadmits, _⟩ | ⟨status, hrejected, haway, hafter⟩
    . exact absurd hadmits.ports htaken
    . refine ⟨?_, hafter⟩
      rw [hrejected]
      cases haway with
      | started hstatus => exact absurd rfl hstatus
      | differs _ hhash => exact absurd rfl hhash.1
      | taken _ _ _ => rfl

end Session

end PadRelay
