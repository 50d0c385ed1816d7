import PadRelay.Proofs.Game.Catching

/-!
This module contains the proof that reading the event stream bit by bit makes no difference. A game that
reads events only when it needs them gives the buttons that a reader would give who knows all events
beforehand, and it never reads further than to the last event that it needed.
-/

namespace PadRelay

variable {β : Type}

namespace Game

variable [Inhabited β]

/-- The buttons that are given for a port and a frame by a reader who knows all events. -/
def answer? (coder : Coder β) (g : Game β) (events : List IncomingEvent) (call : Port × Int32) :
    Option β :=
  (g.remoteDelay? call.1).bind fun initial =>
    if call.2 < initial then some default
    else (keyFor? events call).bind fun key => (coder.decode key).toOption

/-- The number of calls for a port that have been answered. -/
def answered (coder : Coder β) (g : Game β) (events : List IncomingEvent)
    (calls : List (Port × Int32)) (port : Port) : Nat :=
  calls.countP fun call => call.1 = port && (g.answer? coder events call).isSome

/-- Each call asks for the first frame of a remote port that was not given yet. -/
def InTurn (coder : Coder β) (g : Game β) (events : List IncomingEvent) :
    (before calls : List (Port × Int32)) → Prop
  | _, [] => True
  | before, call :: calls =>
    (g.remoteDelay? call.1).isSome = true ∧
      call.2.toInt = g.answered coder events before call.1 ∧
      InTurn coder g events (before ++ [call]) calls

/-- What calls return one after the other, unless one of them has to wait, and the game after them. -/
def getAll? (coder : Coder β) (g : Game β) :
    List (Port × Int32) → Option (List (Except GetError β) × Game β)
  | [] => some ([], g)
  | call :: calls =>
    match g.get? coder call.1 call.2 with
    | none => none
    | some o => (getAll? coder o.game calls).map fun r => (o.result :: r.1, r.2)

/-- What calls return if all events are known beforehand, and how the stream ends after them. -/
def answers? (coder : Coder β) (g : Game β) (events : List IncomingEvent) :
    Option StreamEnd → List (Port × Int32) → Option (List (Except GetError β) × Option StreamEnd)
  | ending, [] => some ([], ending)
  | ending, call :: calls =>
    match g.answer? coder events call with
    | some buttons =>
      (answers? coder g events ending calls).map fun r => (.ok buttons :: r.1, r.2)
    | none =>
      match ending with
      | none => none
      | some e =>
        (answers? coder g events (some e.read.ending) calls).map fun r =>
          (.error (.rpc e.read.failure) :: r.1, r.2)

/--
A game after the calls `calls`, which have read the events `seen` and left the events `rest`.
-/
structure Reading (coder : Coder β) (g : Game β) (events : List IncomingEvent)
    (calls : List (Port × Int32)) (ending : Option StreamEnd) (g' : Game β)
    (seen rest : List IncomingEvent) : Prop where
  split : events = seen ++ rest
  depth : seen.length = g.depth events calls
  localPorts : g'.localPorts = g.localPorts
  status : g'.status = g.status
  inbound : g'.inbound = some { events := rest, ending }
  caught : Caught coder g (seen.flatMap (·.keys)) (g.answered coder events calls) g'.queues
  ahead : ∀ key ∈ rest.flatMap (·.keys),
    (g.answered coder events calls key.target.1 : Int) ≤ key.frame.toInt

section Reading

variable {coder : Coder β} {g g' : Game β} {events seen rest : List IncomingEvent}
  {ending : Option StreamEnd} {calls : List (Port × Int32)} {call : Port × Int32} {initial : Int32}
  {key : KeyState} {buttons : β}

theorem Readable.answer?_of_mem (h : g.Readable coder events ending)
    (hkey : key ∈ events.flatMap (·.keys))
    : ∃ buttons, coder.decode key = .ok buttons ∧
        g.answer? coder events key.target = some buttons := by
  rcases h.sound_of_mem hkey with ⟨_, ⟨initial, hremote, hinitial⟩, buttons, hdecode⟩
  refine ⟨buttons, hdecode, ?_⟩
  have hlate : ¬key.target.2 < initial := Int32.not_lt.2 hinitial
  unfold answer?
  rw [hremote, Option.bind_some, if_neg hlate, keyFor?_of_mem h hkey, Option.bind_some, hdecode]
  rfl

theorem answered_append (calls : List (Port × Int32)) (call : Port × Int32) (port : Port)
    : g.answered coder events (calls ++ [call]) port
        =
      g.answered coder events calls port +
        if call.1 = port ∧ (g.answer? coder events call).isSome = true then 1 else 0 := by
  unfold answered
  rw [List.countP_append, List.countP_singleton]
  simp

section Get

variable {port : Port} {frame : Int32} {q q' : FrameQueue β} {queues : Queues β}
  {inbound inbound' : Inbound} {reads : Nat}

/-- Buttons that are in the queue already are given without a look at the event stream. -/
theorem get?_of_queued (coder : Coder β) (hq : g'.queues.get? port = some q)
    (hget : q.get frame = .ok (buttons, q'))
    : ∃ o, g'.get? coder port frame = some o ∧ o.result = .ok buttons ∧
        o.game = { g' with queues := g'.queues.insert port q' } ∧ .keyReadStart ∉ o.timed := by
  have hqueued : g'.getQueued port frame
      = (.ok buttons, { g' with queues := g'.queues.insert port q' }) := by
    simp [getQueued, hq, hget]
  unfold get?
  split
  . simp [hqueued]
  . simp [getRemote?, hqueued]

theorem get?_of_timeout (hremote : g'.localPorts.contains port = false)
    (hq : g'.queues.get? port = some q) (hget : q.get frame = .error (.timeout frame))
    : g'.get? coder port frame
        =
      (g'.getFromStream? coder port frame).map fun o =>
        { o with timed := .remoteRequested :: o.timed ++ [.remoteReturned] } := by
  have hqueued : g'.getQueued port frame = (.error (.queue port (.timeout frame)), g') := by
    simp [getQueued, hq, hget]
  simp [get?, hremote, getRemote?, hqueued]

theorem get?_of_pumped (hremote : g'.localPorts.contains port = false)
    (hq : g'.queues.get? port = some q) (hget : q.get frame = .error (.timeout frame))
    (hinbound : g'.inbound = some inbound) {q₁ : FrameQueue β}
    (hpump : pump? coder port frame inbound.ending 0 inbound.events g'.queues
      = some { result := .ok (), inbound := inbound', queues, reads })
    (hq₁ : queues.get? port = some q₁) (hget₁ : q₁.get frame = .ok (buttons, q'))
    : ∃ o, g'.get? coder port frame = some o ∧ o.result = .ok buttons ∧
        o.game = { g' with inbound := some inbound', queues := queues.insert port q' } := by
  rw [get?_of_timeout hremote hq hget]
  simp [getFromStream?, hinbound, hpump, getQueued, hq₁, hget₁]

theorem get?_of_ended (hremote : g'.localPorts.contains port = false)
    (hq : g'.queues.get? port = some q) (hget : q.get frame = .error (.timeout frame))
    (hinbound : g'.inbound = some inbound) {failure : RpcFailure}
    (hpump : pump? coder port frame inbound.ending 0 inbound.events g'.queues
      = some { result := .error (.rpc failure), inbound := inbound', queues, reads })
    : ∃ o, g'.get? coder port frame = some o ∧ o.result = .error (.rpc failure) ∧
        o.game = { g' with inbound := some inbound', queues } := by
  rw [get?_of_timeout hremote hq hget]
  simp [getFromStream?, hinbound, hpump]

theorem get?_of_waiting (hremote : g'.localPorts.contains port = false)
    (hq : g'.queues.get? port = some q) (hget : q.get frame = .error (.timeout frame))
    (hinbound : g'.inbound = some inbound)
    (hpump : pump? coder port frame inbound.ending 0 inbound.events g'.queues = none)
    : g'.get? coder port frame = none := by
  rw [get?_of_timeout hremote hq hget]
  simp [getFromStream?, hinbound, hpump]

end Get

namespace Reading

theorem length_le (hs : Reading coder g events calls ending g' seen rest)
    : g.depth events calls ≤ events.length := by
  rw [← hs.depth, hs.split, List.length_append]
  omega

theorem storable (hs : Reading coder g events calls ending g' seen rest)
    {ending₀ : Option StreamEnd} (h : g.Readable coder events ending₀)
    : ∀ key ∈ rest.flatMap (·.keys), Storable coder g (g.answered coder events calls) key := by
  intro key hkey
  have hmem : key ∈ events.flatMap (·.keys) := by
    rw [hs.split, List.flatMap_append]
    exact List.mem_append_right _ hkey
  rcases h.sound_of_mem hmem with ⟨hframe, hport, hdecode⟩
  exact ⟨hframe, hport, hdecode, hs.ahead key hkey⟩

theorem quiet (hs : Reading coder g events calls ending g' seen rest)
    {ending₀ : Option StreamEnd} (h : g.Readable coder events ending₀)
    : ∀ e ∈ rest, e.start = none ∧ e.stop = none ∧ e.invalid = [] := by
  intro e he
  apply h.quiet
  rw [hs.split]
  exact List.mem_append_right _ he

theorem contains_localPorts (hs : Reading coder g events calls ending g' seen rest) {port : Port}
    (hremote : g.remoteDelay? port = some initial) : g'.localPorts.contains port = false := by
  rw [hs.localPorts]
  exact localPorts_of_remoteDelay? hremote

/-- Looking for buttons that were not read yet reads the events up to the one that has them. -/
theorem pumped (hs : Reading coder g events calls ending g' seen rest)
    {ending₀ : Option StreamEnd} (h : g.Readable coder events ending₀)
    (hunseen : key ∈ rest.flatMap (·.keys))
    : ∃ fresh after queues reads i, rest = fresh ++ after ∧ key ∈ fresh.flatMap (·.keys) ∧
        events.findIdx? (fun e => mentions key.target.1 key.target.2 e.keys) = some i ∧
        (seen ++ fresh).length = i + 1 ∧
        Caught coder g ((seen ++ fresh).flatMap (·.keys)) (g.answered coder events calls) queues ∧
        pump? coder key.target.1 key.target.2 ending 0 rest g'.queues
          =
        some { result := .ok (), inbound := { events := after, ending }, queues, reads } := by
  have hother : ∀ key' ∈ seen.flatMap (·.keys), key'.target ≠ key.target :=
    fun _ hkey' => h.target_ne_of_split hs.split hkey' hunseen
  rcases findIdx?_split (mem_keys_iff.2 ⟨key, hunseen, rfl⟩) with
    ⟨before, e, after, rfl, hmentions, hbefore, hfound⟩
  have hrest : before ++ e :: after = (before ++ [e]) ++ after := by simp
  have hdistinct := h.distinct
  rw [hs.split, List.flatMap_append, hrest, List.flatMap_append, ← List.append_assoc,
    List.map_append, List.nodup_append] at hdistinct
  have hstorable := hs.storable h
  have hquiet := hs.quiet h
  rw [hrest] at hquiet hstorable
  rw [List.flatMap_append] at hstorable
  rcases hs.caught.pump?_found
    (fun x hx => hquiet x (List.mem_append_left _ hx))
    (fun key hkey => hstorable key (List.mem_append_left _ hkey)) hdistinct.1 hbefore hmentions
    after ending 0 with
    ⟨queues, reads, hc, hpump⟩
  rw [← List.flatMap_append] at hc
  have hkey : key ∈ e.keys := by
    have hmem : ∀ {key'}, key' ∈ (before ++ e :: after).flatMap (·.keys) →
        key' ∈ events.flatMap (·.keys) := by
      intro key' hkey'
      rw [hs.split, List.flatMap_append]
      exact List.mem_append_right _ hkey'
    rcases (mentions_iff_exists _ _ _).1 hmentions with ⟨key', hkey', htarget⟩
    have hmem' := hmem (List.mem_flatMap.2 ⟨e, by simp, hkey'⟩)
    rwa [← h.eq_of_target (hmem hunseen) hmem' htarget]
  refine ⟨before ++ [e], after, queues, reads, before.length + seen.length, hrest, ?_, ?_, ?_, hc,
    hpump⟩
  . exact List.mem_flatMap.2 ⟨e, by simp, hkey⟩
  . rw [hs.split, List.findIdx?_append, List.findIdx?_eq_none_iff.2 (mentions_eq_false hother),
      hfound]
    rfl
  . simp only [List.length_append, List.length_singleton]
    omega

/-- The game after a call that was answered from the queue of its port. -/
theorem answer (hs : Reading coder g events calls ending g' seen rest)
    {seen' rest' : List IncomingEvent} (hsplit : events = seen' ++ rest')
    (hdepth : seen'.length = g.depth events (calls ++ [call]))
    (hsuffix : ∀ key ∈ rest'.flatMap (·.keys), key ∈ rest.flatMap (·.keys))
    {queues : Queues β}
    (hc : Caught coder g (seen'.flatMap (·.keys)) (g.answered coder events calls) queues)
    (hremote : g.remoteDelay? call.1 = some initial)
    (hframe : call.2.toInt = g.answered coder events calls call.1)
    (hanswer : (g.answer? coder events call).isSome = true)
    (hother : ∀ key ∈ rest'.flatMap (·.keys), key.target ≠ call) {q : FrameQueue β}
    (hq : q.Absorbed coder call.1 initial (seen'.flatMap (·.keys))
      (g.answered coder events calls call.1 + 1))
    : Reading coder g events (calls ++ [call]) ending
        { g' with inbound := some { events := rest', ending }, queues := queues.insert call.1 q }
        seen' rest' := by
  have hself : g.answered coder events (calls ++ [call]) call.1
      = g.answered coder events calls call.1 + 1 := by
    simp [answered_append, hanswer]
  have hothers : ∀ port, port ≠ call.1 → g.answered coder events (calls ++ [call]) port
      = g.answered coder events calls port := by
    intro port hne
    simp [answered_append, hne.symm]
  refine ⟨hsplit, hdepth, hs.localPorts, hs.status, rfl, ?_, ?_⟩
  . exact hc.insert hremote (hself ▸ hq) hothers
  . intro key hkey
    have hahead := hs.ahead key (hsuffix key hkey)
    by_cases heq : key.target.1 = call.1
    . rw [heq] at hahead ⊢
      rw [hself]
      have hne : key.frame.toInt ≠ call.2.toInt := by
        intro hsame
        apply hother key hkey
        exact Prod.ext heq (Int32.toInt_inj.1 hsame)
      omega
    . rw [hothers _ heq]
      exact hahead

/-- A call for a frame within the initial delay is answered without reading. -/
theorem get?_of_lt (hs : Reading coder g events calls ending g' seen rest)
    {ending₀ : Option StreamEnd} (h : g.Readable coder events ending₀)
    (hremote : g.remoteDelay? call.1 = some initial)
    (hframe : call.2.toInt = g.answered coder events calls call.1) (hinitial : call.2 < initial)
    : ∃ o, g'.get? coder call.1 call.2 = some o ∧ o.result = .ok default ∧
        Reading coder g events (calls ++ [call]) ending o.game seen rest := by
  have hother : ∀ key ∈ events.flatMap (·.keys), key.target ≠ call := by
    rintro key hkey rfl
    rcases (h.sound_of_mem hkey).2.1 with ⟨initial', hremote', hle⟩
    rw [hremote, Option.some.injEq] at hremote'
    rw [← hremote'] at hle
    exact Int32.not_lt.2 hle hinitial
  rw [hs.split, List.flatMap_append] at hother
  rcases hs.caught call.1 initial hremote with ⟨q, hq, habsorbed⟩
  rcases habsorbed.get_of_lt hframe hinitial
    (fun key hkey => hother key (List.mem_append_left _ hkey)) with ⟨q', hget, habsorbed'⟩
  rcases get?_of_queued coder hq hget with ⟨o, ho, hresult, hgame, _⟩
  refine ⟨o, ho, hresult, ?_⟩
  have hposition : g.position events call = 0 := by
    simp [position, hremote, hinitial]
  have hanswer := hs.answer hs.split (by rw [depth_append, hposition, hs.depth, Nat.max_zero])
    (fun _ hkey => hkey) hs.caught hremote hframe (by simp [answer?, hremote, hinitial])
    (fun key hkey => hother key (List.mem_append_right _ hkey)) habsorbed'
  rw [hgame]
  rwa [← hs.inbound] at hanswer

/-- A call for buttons that are in an event that was read already is answered without reading. -/
theorem get?_of_seen (hs : Reading coder g events calls ending g' seen rest)
    {ending₀ : Option StreamEnd} (h : g.Readable coder events ending₀)
    (hremote : g.remoteDelay? key.target.1 = some initial)
    (hframe : key.target.2.toInt = g.answered coder events calls key.target.1)
    (hinitial : initial ≤ key.target.2) (hseen : key ∈ seen.flatMap (·.keys))
    (hdecode : coder.decode key = .ok buttons)
    : ∃ o, g'.get? coder key.target.1 key.target.2 = some o ∧ o.result = .ok buttons ∧
        Reading coder g events (calls ++ [key.target]) ending o.game seen rest := by
  have hmem : key ∈ events.flatMap (·.keys) := by
    rw [hs.split, List.flatMap_append]
    exact List.mem_append_left _ hseen
  have hother : ∀ key' ∈ rest.flatMap (·.keys), key'.target ≠ key.target :=
    fun _ hkey' => (h.target_ne_of_split hs.split hseen hkey').symm
  rcases hs.caught _ initial hremote with ⟨q, hq, habsorbed⟩
  rcases habsorbed.get_of_mem hframe hinitial hseen rfl hdecode with ⟨q', hget, habsorbed'⟩
  rcases get?_of_queued coder hq hget with ⟨o, ho, hresult, hgame, _⟩
  refine ⟨o, ho, hresult, ?_⟩
  have hdepth : g.depth events (calls ++ [key.target]) = seen.length := by
    rcases findIdx?_split (mem_keys_iff.2 ⟨key, hseen, rfl⟩) with
      ⟨before, e, after, hsplit, _, _, hfound⟩
    have hfound : events.findIdx? (fun e => mentions key.target.1 key.target.2 e.keys)
        = some before.length := by
      rw [hs.split, List.findIdx?_append, hfound, Option.some_or]
    rw [depth_append, position_of_le hremote hinitial hfound, ← hs.depth, hsplit,
      List.length_append, List.length_cons]
    omega
  rcases h.answer?_of_mem hmem with ⟨_, _, hanswer⟩
  have hanswer := hs.answer hs.split hdepth.symm (fun _ hkey => hkey) hs.caught hremote hframe
    (by rw [hanswer]; rfl) hother habsorbed'
  rw [hgame]
  rwa [← hs.inbound] at hanswer

/-- A call for buttons that are in an event that was not read yet reads up to this event. -/
theorem get?_of_unseen (hs : Reading coder g events calls ending g' seen rest)
    {ending₀ : Option StreamEnd} (h : g.Readable coder events ending₀)
    (hremote : g.remoteDelay? key.target.1 = some initial)
    (hframe : key.target.2.toInt = g.answered coder events calls key.target.1)
    (hinitial : initial ≤ key.target.2) (hunseen : key ∈ rest.flatMap (·.keys))
    (hdecode : coder.decode key = .ok buttons)
    : ∃ o seen' rest', g'.get? coder key.target.1 key.target.2 = some o ∧ o.result = .ok buttons ∧
        Reading coder g events (calls ++ [key.target]) ending o.game seen' rest' := by
  have hmem : key ∈ events.flatMap (·.keys) := by
    rw [hs.split, List.flatMap_append]
    exact List.mem_append_right _ hunseen
  rcases hs.caught _ initial hremote with ⟨q, hq, habsorbed⟩
  have hget := habsorbed.get_timeout hframe hinitial
    fun _ hkey' => h.target_ne_of_split hs.split hkey' hunseen
  rcases hs.pumped h hunseen with
    ⟨fresh, after, queues, reads, i, rfl, hfresh, hfound, hlength, hc, hpump⟩
  have hseen : key ∈ (seen ++ fresh).flatMap (·.keys) := by
    rw [List.flatMap_append]
    exact List.mem_append_right _ hfresh
  rcases hc _ initial hremote with ⟨q₁, hq₁, habsorbed₁⟩
  rcases habsorbed₁.get_of_mem hframe hinitial hseen rfl hdecode with ⟨q', hget₁, habsorbed'⟩
  rcases get?_of_pumped (hs.contains_localPorts hremote) hq hget hs.inbound hpump hq₁ hget₁ with
    ⟨o, ho, hresult, hgame⟩
  refine ⟨o, seen ++ fresh, after, ho, hresult, ?_⟩
  have hsplit : events = (seen ++ fresh) ++ after := by
    rw [hs.split, List.append_assoc]
  have hdepth : g.depth events (calls ++ [key.target]) = (seen ++ fresh).length := by
    rw [depth_append, position_of_le hremote hinitial hfound, ← hs.depth, hlength]
    rw [List.length_append] at hlength
    omega
  have hother : ∀ key' ∈ after.flatMap (·.keys), key'.target ≠ key.target :=
    fun _ hkey' => (h.target_ne_of_split hsplit hseen hkey').symm
  rcases h.answer?_of_mem hmem with ⟨_, _, hanswer⟩
  rw [hgame]
  apply hs.answer hsplit hdepth.symm _ hc hremote hframe (by rw [hanswer]; rfl) hother habsorbed'
  intro key' hkey'
  rw [List.flatMap_append]
  exact List.mem_append_right _ hkey'

/-- A call for buttons that are not in the stream reads it to its end. -/
theorem get?_of_missing (hs : Reading coder g events calls ending g' seen rest)
    {ending₀ : Option StreamEnd} (h : g.Readable coder events ending₀)
    (hremote : g.remoteDelay? call.1 = some initial)
    (hframe : call.2.toInt = g.answered coder events calls call.1) (hinitial : initial ≤ call.2)
    (hmissing : keyFor? events call = none)
    : (ending = none → g'.get? coder call.1 call.2 = none) ∧
        ∀ e, ending = some e → ∃ o, g'.get? coder call.1 call.2 = some o ∧
          o.result = .error (.rpc e.read.failure) ∧
          Reading coder g events (calls ++ [call]) (some e.read.ending) o.game events [] := by
  have hother := keyFor?_eq_none hmissing
  rw [hs.split, List.flatMap_append] at hother
  rcases hs.caught _ initial hremote with ⟨q, hq, habsorbed⟩
  have hget := habsorbed.get_timeout hframe hinitial
    (fun key hkey => hother key (List.mem_append_left _ hkey))
  have hdistinct := h.distinct
  rw [hs.split, List.flatMap_append] at hdistinct
  rcases hs.caught.pump?_append (hs.quiet h) (hs.storable h) hdistinct
    (mentions_eq_false fun key hkey => hother key (List.mem_append_right _ hkey)) [] ending 0 with
    ⟨queues, hc, hpump⟩
  rw [List.append_nil] at hpump
  constructor
  . rintro rfl
    exact get?_of_waiting (hs.contains_localPorts hremote) hq hget hs.inbound hpump
  . rintro e rfl
    rcases get?_of_ended (hs.contains_localPorts hremote) hq hget hs.inbound hpump with
      ⟨o, ho, hresult, hgame⟩
    refine ⟨o, ho, hresult, ?_⟩
    have hnone : events.findIdx? (fun e => mentions call.1 call.2 e.keys) = none := by
      rw [List.findIdx?_eq_none_iff]
      exact mentions_eq_false (keyFor?_eq_none hmissing)
    have hunanswered : g.answer? coder events call = none := by
      simp [answer?, hremote, Int32.not_lt.2 hinitial, hmissing]
    have hcount : g.answered coder events (calls ++ [call]) = g.answered coder events calls := by
      funext port
      simp [answered_append, hunanswered]
    have hdepth : g.depth events (calls ++ [call]) = events.length := by
      rw [depth_append, position_of_missing hremote hinitial hnone]
      exact Nat.max_eq_right hs.length_le
    rw [hgame]
    refine ⟨by simp, hdepth.symm, hs.localPorts, hs.status, rfl, ?_, by simp⟩
    have hkeys : events.flatMap (·.keys) = seen.flatMap (·.keys) ++ rest.flatMap (·.keys) := by
      rw [hs.split, List.flatMap_append]
    rw [hcount, hkeys]
    exact hc

end Reading

/-- The game before any call. -/
theorem Readable.reading (h : g.Readable coder events ending)
    : Reading coder g events [] ending g [] events where
  split := rfl
  depth := rfl
  localPorts := rfl
  status := rfl
  inbound := h.inbound
  caught port initial hremote := by
    refine ⟨_, h.fresh port initial hremote, ?_⟩
    exact .forRemote coder port initial
  ahead key hkey := by
    have hframe := (h.sound_of_mem hkey).1
    rw [Int32.le_iff_toInt_le, Int32.toInt_zero] at hframe
    exact hframe

/-- One call after any others: it returns what a reader returns who knows all events. -/
theorem Reading.get? (hs : Reading coder g events calls ending g' seen rest)
    {ending₀ : Option StreamEnd} (h : g.Readable coder events ending₀)
    (hremote : (g.remoteDelay? call.1).isSome = true)
    (hframe : call.2.toInt = g.answered coder events calls call.1)
    : (∀ buttons, g.answer? coder events call = some buttons →
        ∃ o seen' rest', g'.get? coder call.1 call.2 = some o ∧ o.result = .ok buttons ∧
          Reading coder g events (calls ++ [call]) ending o.game seen' rest') ∧
        (g.answer? coder events call = none →
          (ending = none → g'.get? coder call.1 call.2 = none) ∧
            ∀ e, ending = some e → ∃ o, g'.get? coder call.1 call.2 = some o ∧
              o.result = .error (.rpc e.read.failure) ∧
              Reading coder g events (calls ++ [call]) (some e.read.ending) o.game events []) := by
  rw [Option.isSome_iff_exists] at hremote
  rcases hremote with ⟨initial, hremote⟩
  unfold answer?
  rw [hremote, Option.bind_some]
  by_cases hinitial : call.2 < initial
  . rw [if_pos hinitial]
    constructor
    . intro buttons hbuttons
      rw [Option.some.injEq] at hbuttons
      rcases hs.get?_of_lt h hremote hframe hinitial with ⟨o, ho, hresult, hs'⟩
      exact ⟨o, seen, rest, ho, hbuttons ▸ hresult, hs'⟩
    . simp
  . rw [if_neg hinitial]
    have hinitial := Int32.not_lt.1 hinitial
    cases hkey : keyFor? events call with
    | none =>
      constructor
      . simp
      . intro _
        exact hs.get?_of_missing h hremote hframe hinitial hkey
    | some key =>
      rcases keyFor?_eq_some hkey with ⟨hmem, rfl⟩
      rcases h.sound_of_mem hmem with ⟨_, _, buttons, hdecode⟩
      rw [Option.bind_some, hdecode]
      constructor
      . intro buttons' hbuttons
        simp only [Except.toOption, Option.some.injEq] at hbuttons
        subst hbuttons
        rw [hs.split, List.flatMap_append, List.mem_append] at hmem
        rcases hmem with hseen | hunseen
        . rcases hs.get?_of_seen h hremote hframe hinitial hseen hdecode with ⟨o, ho, hresult, hs'⟩
          exact ⟨o, seen, rest, ho, hresult, hs'⟩
        . exact hs.get?_of_unseen h hremote hframe hinitial hunseen hdecode
      . simp [Except.toOption]

theorem Reading.getAll? (hs : Reading coder g events calls ending g' seen rest)
    {ending₀ : Option StreamEnd} (h : g.Readable coder events ending₀)
    {calls' : List (Port × Int32)} (hturn : g.InTurn coder events calls calls')
    : (g'.getAll? coder calls').map (fun r => (r.1, r.2.inbound, r.2.status))
        =
      (g.answers? coder events ending calls').map fun r =>
        (r.1, some { events := events.drop (g.depth events (calls ++ calls')), ending := r.2 },
          g.status) := by
  induction calls' generalizing calls ending g' seen rest with
  | nil =>
    have hrest : rest = events.drop (g.depth events calls) := by
      rw [← hs.depth, hs.split, List.drop_left]
    simp [Game.getAll?, answers?, hs.inbound, hs.status, hrest]
  | cons call calls' ih =>
    rcases hturn with ⟨hremote, hframe, hturn⟩
    have hsplit : calls ++ call :: calls' = (calls ++ [call]) ++ calls' := by simp
    rw [hsplit]
    rcases hs.get? h hremote hframe with ⟨hanswered, hmissing⟩
    unfold Game.getAll? answers?
    cases hanswer : g.answer? coder events call with
    | some buttons =>
      rcases hanswered buttons hanswer with ⟨o, seen', rest', ho, hresult, hs'⟩
      have hrest := congrArg (Option.map fun x => (Except.ok buttons :: x.1, x.2)) (ih hs' hturn)
      rw [Option.map_map, Option.map_map] at hrest
      rw [ho]
      dsimp
      rw [hresult, Option.map_map, Option.map_map]
      exact hrest
    | none =>
      rcases hmissing hanswer with ⟨hwaits, hends⟩
      cases ending with
      | none => simp [hwaits rfl]
      | some e =>
        rcases hends e rfl with ⟨o, ho, hresult, hs'⟩
        have hrest := congrArg
          (Option.map fun x => (Except.error (GetError.rpc e.read.failure) :: x.1, x.2)) (ih hs' hturn)
        rw [Option.map_map, Option.map_map] at hrest
        rw [ho]
        dsimp
        rw [hresult, Option.map_map, Option.map_map]
        exact hrest

theorem mem_zip_answers? {r : List (Except GetError β) × Option StreamEnd}
    (hr : g.answers? coder events ending calls = some r) {result : Except GetError β}
    (hmem : (call, result) ∈ calls.zip r.1)
    : (∃ buttons, g.answer? coder events call = some buttons ∧ result = .ok buttons) ∨
        (g.answer? coder events call = none ∧ ∃ failure, result = .error (.rpc failure)) := by
  induction calls generalizing ending r with
  | nil => simp at hmem
  | cons call' calls ih =>
    unfold answers? at hr
    cases hanswer : g.answer? coder events call' with
    | some buttons =>
      simp only [hanswer, Option.map_eq_some_iff] at hr
      rcases hr with ⟨r', hr', rfl⟩
      rw [List.zip_cons_cons, List.mem_cons, Prod.mk.injEq] at hmem
      rcases hmem with ⟨rfl, rfl⟩ | hmem
      . exact Or.inl ⟨buttons, hanswer, rfl⟩
      . exact ih hr' hmem
    | none =>
      cases ending with
      | none => simp [hanswer] at hr
      | some e =>
        simp only [hanswer, Option.map_eq_some_iff] at hr
        rcases hr with ⟨r', hr', rfl⟩
        rw [List.zip_cons_cons, List.mem_cons, Prod.mk.injEq] at hmem
        rcases hmem with ⟨rfl, rfl⟩ | hmem
        . exact Or.inr ⟨hanswer, _, rfl⟩
        . exact ih hr' hmem

end Reading

/--
Games read their event stream as if they knew it beforehand. Of all messages that are about a remote port
and a frame, each is what is given for this port and frame, and calls in whatever order return what is
given or the end of the stream. They leave what comes after the last event that was needed, so in another
order they give the same buttons.
-/
theorem reading_transparent {coder : Coder β} {g : Game β} {events : List IncomingEvent}
    {ending : Option StreamEnd} (h : g.Readable coder events ending)
    : (∀ key ∈ events.flatMap (·.keys), ∃ buttons, coder.decode key = .ok buttons ∧
        g.answer? coder events key.target = some buttons) ∧
        (∀ calls, g.InTurn coder events [] calls →
          (g.getAll? coder calls).map (fun r => (r.1, r.2.inbound, r.2.status))
            =
          (g.answers? coder events ending calls).map fun r =>
            (r.1, some { events := events.drop (g.depth events calls), ending := r.2 }, g.status)) ∧
        ∀ calls calls' r r', g.InTurn coder events [] calls → g.InTurn coder events [] calls' →
          g.getAll? coder calls = some r → g.getAll? coder calls' = some r' →
            ∀ call buttons result, (call, .ok buttons) ∈ calls.zip r.1 →
              (call, result) ∈ calls'.zip r'.1 → result = .ok buttons := by
  have hall : ∀ calls, g.InTurn coder events [] calls →
      (g.getAll? coder calls).map (fun r => (r.1, r.2.inbound, r.2.status))
        =
      (g.answers? coder events ending calls).map fun r =>
        (r.1, some { events := events.drop (g.depth events calls), ending := r.2 }, g.status) :=
    fun calls hturn => h.reading.getAll? h hturn
  have hgiven : ∀ calls r, g.InTurn coder events [] calls → g.getAll? coder calls = some r →
      ∀ call result, (call, result) ∈ calls.zip r.1 →
        (∃ buttons, g.answer? coder events call = some buttons ∧ result = .ok buttons) ∨
          (g.answer? coder events call = none ∧ ∃ failure, result = .error (.rpc failure)) := by
    intro calls r hturn hr call result hmem
    have heq := hall calls hturn
    rw [hr, Option.map_some, eq_comm, Option.map_eq_some_iff] at heq
    rcases heq with ⟨r', hr', heq⟩
    rw [Prod.mk.injEq] at heq
    rw [← heq.1] at hmem
    exact mem_zip_answers? hr' hmem
  refine ⟨fun key hkey => h.answer?_of_mem hkey, hall, ?_⟩
  intro calls calls' r r' hturn hturn' hr hr' call buttons result hmem hmem'
  rcases hgiven calls r hturn hr call _ hmem with ⟨buttons', hanswer, heq⟩ | ⟨_, _, heq⟩
  . rw [Except.ok.injEq] at heq
    subst heq
    rcases hgiven calls' r' hturn' hr' call result hmem' with ⟨_, hanswer', heq⟩ | ⟨hnone, _⟩
    . rw [hanswer, Option.some.injEq] at hanswer'
      rw [heq, hanswer']
    . rw [hanswer] at hnone
      simp at hnone
  . simp at heq

/-- Input of two others, who send out of order. -/
def chatter : List IncomingEvent :=
  [{ keys := [{ port := 3, frame := 1, xAxis := 31 }, { port := 2, frame := 1, xAxis := 21 }] },
    { keys := [{ port := 3, frame := 0, xAxis := 30 }] },
    { keys := [{ port := 2, frame := 2, xAxis := 22 }] }]

def listener : Game UInt32 where
  consoleId := ⟨1⟩
  clientId := ⟨1⟩
  localPorts := .ofList [.one]
  inbound := some { events := chatter, ending := some .closed }
  queues := .ofList [(.one, .forLocal 0), (.two, .forRemote 1), (.three, .forRemote 0)]
  status := .running

theorem reading_transparent_listener
    : (listener.getAll? .word [(.three, 0), (.two, 0), (.two, 1), (.three, 1)]).map
        (fun r => (r.1, r.2.inbound, r.2.status))
          =
        some ([.ok 30, .ok 0, .ok 21, .ok 31],
          some { events := chatter.drop 2, ending := some .closed }, .running) ∧
        (listener.getAll? .word [(.two, 0), (.three, 0), (.three, 1), (.three, 2), (.two, 1)]).map
          (fun r => (r.1, r.2.inbound, r.2.status))
            =
        some ([.ok 0, .ok 30, .ok 31, .error (.rpc .streamEnded), .ok 21],
          some { events := [], ending := some .closed }, .running) := by
  have hfresh : ∀ port, (listener.remoteDelay? port).all (fun initial =>
      listener.queues.get? port = some (.forRemote initial)) = true := by
    intro port
    cases port <;> decide +kernel
  have hsound : ∀ e ∈ chatter, ∀ key ∈ e.keys, 0 ≤ key.frame ∧
      (listener.remoteDelay? key.target.1).any (fun initial => initial ≤ key.frame) = true := by
    decide +kernel
  have hreadable : listener.Readable .word chatter (some .closed) := by
    refine ⟨rfl, ?_, by decide, ?_, by decide⟩
    . intro port initial hremote
      simpa [hremote] using hfresh port
    . intro e he key hkey
      rcases hsound e he key hkey with ⟨hframe, hremote⟩
      simp only [Option.any_eq_true, decide_eq_true_eq] at hremote
      exact ⟨hframe, hremote, _, rfl⟩
  have hall := (reading_transparent hreadable).2.1
  constructor
  . rw [hall]
    . rfl
    . refine ⟨?_, ?_, ?_, ?_, ?_, ?_, ?_, ?_, trivial⟩
      all_goals decide +kernel
  . rw [hall]
    . rfl
    . refine ⟨?_, ?_, ?_, ?_, ?_, ?_, ?_, ?_, ?_, ?_, trivial⟩
      all_goals decide +kernel

end Game

end PadRelay
