import PadRelay.Proofs.Game.LocalInput
import PadRelay.Proofs.Game.Reading

/-!
This module contains the proof that no read of a remote port runs out of time. The event stream is read
until a message about the port and the frame was seen. Its buttons are then in the queue under the very
same number, since the queue of a remote port does not delay anything, so that the queue has them when it
is asked again. A message that is refused on the way takes nothing away from those before it.
-/

namespace PadRelay

variable {β : Type}

/-- There is nothing but buttons in an event. -/
def IncomingEvent.Plain (e : IncomingEvent) : Prop :=
  e.start = none ∧ e.stop = none ∧ e.invalid = []

theorem IncomingEvent.plain_of_not {e : IncomingEvent} (hstop : ¬ e.stop.isSome = true)
    (hunexpected : ¬ (e.start.isSome = true ∨ e.invalid ≠ [])) : e.Plain := by
  have hrest : e.start = none ∧ e.invalid = [] := by simpa using hunexpected
  exact ⟨hrest.1, by simpa using hstop, hrest.2⟩

/-- An error of the event stream, or about what arrived on it. -/
def GetError.isOfStream : GetError → Bool
  | noSuchPort _ | queue _ _ => false
  | _ => true

/-- An error about buttons that arrived on the event stream. -/
def GetError.isRefusal : GetError → Bool
  | invalidButtons _ | rejectedByQueue _ _ => true
  | _ => false

namespace Game

section Queues

variable {localPorts : PortSet} {queues queues' : Queues β} {port : Port} {q q' : FrameQueue β}

/-- The queues of remote ports do not delay what is put into them. -/
def Undelayed (localPorts : PortSet) (queues : Queues β) : Prop :=
  ∀ port q, localPorts.contains port = false → queues.get? port = some q → q.delay = 0

theorem undelayed_empty (localPorts : PortSet) : Undelayed localPorts (∅ : Queues β) := by
  intro port q _ hq
  simp at hq

theorem Undelayed.insert (h : Undelayed localPorts queues) (hq : queues.get? port = some q)
    (hdelay : q'.delay = q.delay) : Undelayed localPorts (queues.insert port q') := by
  intro port' q₁ hremote hq₁
  rw [SortedMap.get?_insert] at hq₁
  split at hq₁
  . next heq =>
    rw [Option.some.injEq] at hq₁
    rw [← hq₁, hdelay]
    exact h port q (heq ▸ hremote) hq
  . exact h port' q₁ hremote hq₁

theorem Undelayed.connects {ports : List ConnectedPort} (h : Undelayed localPorts queues)
    (hconnects : Connects localPorts ports queues queues') : Undelayed localPorts queues' := by
  intro port q hremote hq
  rcases hconnects.origin port q hq with hold | ⟨connected, _, _, rfl⟩
  . exact h port q hremote hold
  . simp [newQueue, hremote, FrameQueue.forRemote]

variable {coder : Coder β} {keys : List KeyState} {key : KeyState}

theorem Undelayed.stores (h : Undelayed localPorts queues) (hstores : Stores coder keys queues queues')
    : Undelayed localPorts queues' := by
  induction hstores with
  | refl => exact h
  | put _ _ hq _ hput ih => exact ih.insert hq (FrameQueue.extends_put hput).delay

/-- The buttons of a message wait in the queue of its port. -/
def InQueue (coder : Coder β) (queues : Queues β) (key : KeyState) : Prop :=
  ∃ q x buttons, queues.get? (Port.ofNumber key.port) = some q ∧ coder.decode key = .ok buttons ∧
    x.toInt = key.frame.toInt + q.delay.toInt ∧ q.initial ≤ x ∧ q.frames.get? x = some buttons

theorem InQueue.extend (h : InQueue coder queues key) (hext : ExtendsAll queues queues')
    : InQueue coder queues' key := by
  rcases h with ⟨q, x, buttons, hq, hdecode, hx, hinitial, hqueued⟩
  rcases (hext _).2 q hq with ⟨q', hq', hext⟩
  refine ⟨q', x, buttons, hq', hdecode, ?_, ?_, hext.frames x buttons hqueued⟩
  . rw [hext.delay, hx]
  . rw [hext.initial]
    exact hinitial

theorem inQueue_of_put {buttons : β} (hdecode : coder.decode key = .ok buttons)
    (hput : q.put key.frame buttons = .ok q')
    : InQueue coder (queues.insert (Port.ofNumber key.port) q') key := by
  rcases FrameQueue.put_eq_ok_iff.1 hput with ⟨x, _, hx, hinitial, _, _, rfl⟩
  exact ⟨_, x, buttons, SortedMap.get?_insert_self _ _ _, hdecode, hx, hinitial,
    SortedMap.get?_insert_self _ _ _⟩

end Queues

section Store

variable {coder : Coder β} {keys : List KeyState} {queues queues' : Queues β} {cause : GetError}

theorem storeKeys_append (h : storeKeys coder keys queues = (.ok (), queues'))
    (keys' : List KeyState)
    : storeKeys coder (keys ++ keys') queues = storeKeys coder keys' queues' := by
  induction keys generalizing queues with
  | nil =>
    simp only [storeKeys, Prod.mk.injEq, true_and] at h
    rw [h]
    rfl
  | cons key rest ih =>
    rw [List.cons_append]
    unfold storeKeys at h
    conv => lhs; unfold storeKeys
    dsimp at h ⊢
    split at h
    . simp at h
    . split at h
      . simp at h
      . split at h
        . simp at h
        . exact ih h

theorem inQueue_of_storeKeys (h : storeKeys coder keys queues = (.ok (), queues'))
    : ∀ key ∈ keys, InQueue coder queues' key := by
  induction keys generalizing queues with
  | nil => simp
  | cons key rest ih =>
    have hrest : ∀ stored, storeKeys coder rest stored = (.ok (), queues') →
        Stores coder rest stored queues' := by
      intro stored hstored
      have hstores := stores_storeKeys coder rest stored
      rwa [hstored] at hstores
    unfold storeKeys at h
    dsimp at h
    split at h
    . simp at h
    . split at h
      . simp at h
      . next buttons hdecode =>
        split at h
        . simp at h
        . next q' hput =>
          intro key' hkey'
          cases List.mem_cons.1 hkey' with
          | inl heq =>
            rw [heq]
            exact (inQueue_of_put hdecode hput).extend (hrest _ h).extendsAll
          | inr hmem => exact ih h key' hmem

/-- A message is refused after all those before it were stored. -/
theorem storeKeys_error (h : storeKeys coder keys queues = (.error cause, queues'))
    : cause.isRefusal = true ∧ ∃ done bad rest, keys = done ++ bad :: rest ∧
        storeKeys coder done queues = (.ok (), queues') ∧
        storeKeys coder [bad] queues' = (.error cause, queues') := by
  induction keys generalizing queues with
  | nil => simp [storeKeys] at h
  | cons key rest ih =>
    unfold storeKeys at h
    dsimp at h
    split at h
    . next hq =>
      simp only [Prod.mk.injEq, Except.error.injEq] at h
      rcases h with ⟨rfl, rfl⟩
      exact ⟨rfl, [], key, rest, rfl, rfl, by simp [storeKeys, hq]⟩
    . next q hq =>
      split at h
      . next hdecode =>
        simp only [Prod.mk.injEq, Except.error.injEq] at h
        rcases h with ⟨rfl, rfl⟩
        exact ⟨rfl, [], key, rest, rfl, rfl, by simp [storeKeys, hq, hdecode]⟩
      . next buttons hdecode =>
        split at h
        . next hput =>
          simp only [Prod.mk.injEq, Except.error.injEq] at h
          rcases h with ⟨rfl, rfl⟩
          exact ⟨rfl, [], key, rest, rfl, rfl, by simp [storeKeys, hq, hdecode, hput]⟩
        . next q' hput =>
          rcases ih h with ⟨hrefusal, done, bad, rest', rfl, hdone, hbad⟩
          refine ⟨hrefusal, key :: done, bad, rest', rfl, ?_, hbad⟩
          unfold storeKeys
          dsimp
          rw [hq]
          dsimp
          rw [hdecode]
          dsimp
          rw [hput]
          exact hdone

end Store

section Pump

variable {coder : Coder β} {port : Port} {frame : Int32} {ending : Option StreamEnd}
variable {reads : Nat} {e : IncomingEvent} {events passed : List IncomingEvent}
variable {queues queues' : Queues β} {pumped : Pumped β}

/-- Some events are stored without being about the buttons that are searched. -/
structure Passes (coder : Coder β) (port : Port) (frame : Int32) (passed : List IncomingEvent)
    (queues queues' : Queues β) : Prop where
  plain : ∀ e ∈ passed, e.Plain
  other : ∀ e ∈ passed, mentions port frame e.keys = false
  stored : storeKeys coder (passed.flatMap (·.keys)) queues = (.ok (), queues')

theorem passes_nil (coder : Coder β) (port : Port) (frame : Int32) (queues : Queues β)
    : Passes coder port frame [] queues queues := ⟨by simp, by simp, rfl⟩

theorem Passes.cons {queues'' : Queues β} (h : Passes coder port frame passed queues' queues'')
    (hplain : e.Plain) (hother : mentions port frame e.keys = false)
    (hstored : storeKeys coder e.keys queues = (.ok (), queues'))
    : Passes coder port frame (e :: passed) queues queues'' where
  plain e' he' := by
    cases List.mem_cons.1 he' with
    | inl heq => exact heq ▸ hplain
    | inr hmem => exact h.plain e' hmem
  other e' he' := by
    cases List.mem_cons.1 he' with
    | inl heq => exact heq ▸ hother
    | inr hmem => exact h.other e' hmem
  stored := by
    rw [List.flatMap_cons, storeKeys_append hstored]
    exact h.stored

/-- What comes of a search that ends with an event, and the queues that it leaves. -/
inductive Ends (coder : Coder β) (port : Port) (frame : Int32) (e : IncomingEvent)
    (queues : Queues β) : Except GetError Unit → Queues β → Prop
  | stopped : e.stop.isSome = true →
    Ends coder port frame e queues (.error .consoleTerminated) queues
  | unexpected : ¬ e.Plain → Ends coder port frame e queues (.error (.unexpectedEvent e)) queues
  | refused {cause : GetError} {queues' : Queues β} : e.Plain →
    storeKeys coder e.keys queues = (.error cause, queues') →
    Ends coder port frame e queues (.error cause) queues'
  | found {queues' : Queues β} : e.Plain → storeKeys coder e.keys queues = (.ok (), queues') →
    mentions port frame e.keys = true → Ends coder port frame e queues (.ok ()) queues'

/-- What a search that has come back has read, and at which event it has ended, if at any. -/
structure Searched (coder : Coder β) (port : Port) (frame : Int32) (ending : Option StreamEnd)
    (events : List IncomingEvent) (queues : Queues β) (pumped : Pumped β)
    (passed : List IncomingEvent) (queues' : Queues β) : Prop where
  passes : Passes coder port frame passed queues queues'
  last : (events = passed ∧ pumped.inbound.events = [] ∧ pumped.queues = queues' ∧
      ∃ e, ending = some e ∧ pumped.result = .error (.rpc e.read.failure)) ∨
    ∃ e, events = passed ++ e :: pumped.inbound.events ∧
      Ends coder port frame e queues' pumped.result pumped.queues

theorem pump?_cases (h : pump? coder port frame ending reads events queues = some pumped)
    : ∃ passed queues', Searched coder port frame ending events queues pumped passed queues' := by
  induction events generalizing reads queues with
  | nil =>
    unfold pump? at h
    rw [Option.map_eq_some_iff] at h
    rcases h with ⟨e, he, rfl⟩
    exact ⟨[], queues, passes_nil coder port frame queues, Or.inl ⟨rfl, rfl, rfl, e, he, rfl⟩⟩
  | cons e rest ih =>
    have hnil := passes_nil coder port frame queues
    unfold pump? at h
    dsimp at h
    split at h
    . next hstop =>
      rw [Option.some.injEq] at h
      rw [← h]
      exact ⟨[], queues, hnil, Or.inr ⟨e, rfl, .stopped hstop⟩⟩
    . next hstop =>
      split at h
      . next hunexpected =>
        rw [Option.some.injEq] at h
        rw [← h]
        refine ⟨[], queues, hnil, Or.inr ⟨e, rfl, .unexpected ?_⟩⟩
        rintro ⟨hstart, _, hinvalid⟩
        simp [hstart, hinvalid] at hunexpected
      . next hexpected =>
        have hplain := IncomingEvent.plain_of_not hstop hexpected
        split at h
        . next cause queues₁ hrefused =>
          rw [Option.some.injEq] at h
          rw [← h]
          exact ⟨[], queues, hnil, Or.inr ⟨e, rfl, .refused hplain hrefused⟩⟩
        . next queues₁ hstored =>
          split at h
          . next hfound =>
            rw [Option.some.injEq] at h
            rw [← h]
            exact ⟨[], queues, hnil, Or.inr ⟨e, rfl, .found hplain hstored hfound⟩⟩
          . next hother =>
            rcases ih h with ⟨passed, queues₂, hpasses, hlast⟩
            refine ⟨e :: passed, queues₂,
              hpasses.cons hplain (Bool.eq_false_iff.2 hother) hstored, ?_⟩
            rcases hlast with ⟨rfl, hlast⟩ | ⟨e', rfl, hends⟩
            . exact Or.inl ⟨rfl, hlast⟩
            . exact Or.inr ⟨e', rfl, hends⟩

/-- A search that goes on has passed all events that have arrived. -/
theorem pump?_eq_none (h : pump? coder port frame ending reads events queues = none)
    : ending = none ∧ ∃ queues', Passes coder port frame events queues queues' := by
  induction events generalizing reads queues with
  | nil =>
    unfold pump? at h
    rw [Option.map_eq_none_iff] at h
    exact ⟨h, queues, passes_nil coder port frame queues⟩
  | cons e rest ih =>
    unfold pump? at h
    dsimp at h
    split at h
    . simp at h
    . next hstop =>
      split at h
      . simp at h
      . next hexpected =>
        have hplain := IncomingEvent.plain_of_not hstop hexpected
        split at h
        . simp at h
        . next hstored =>
          split at h
          . simp at h
          . next hother =>
            rcases ih h with ⟨hending, queues₂, hpasses⟩
            exact ⟨hending, queues₂, hpasses.cons hplain (Bool.eq_false_iff.2 hother) hstored⟩

/-- Whatever ends a search is about the event stream. -/
theorem Ends.isOfStream {cause : GetError}
    (h : Ends coder port frame e queues (.error cause) queues') : cause.isOfStream = true := by
  cases h with
  | stopped => rfl
  | unexpected => rfl
  | refused _ hrefused =>
    have hrefusal := (storeKeys_error hrefused).1
    cases cause <;> simp_all [GetError.isRefusal, GetError.isOfStream]

theorem isOfStream_of_pump? {cause : GetError}
    (h : pump? coder port frame ending reads events queues = some pumped)
    (hcause : pumped.result = .error cause) : cause.isOfStream = true := by
  rcases pump?_cases h with ⟨passed, queues', _, ⟨_, _, _, e, _, hresult⟩ | ⟨e, _, hends⟩⟩
  . rw [hresult, Except.error.injEq] at hcause
    rw [← hcause]
    rfl
  . rw [hcause] at hends
    exact hends.isOfStream

/-- Buttons that were found are in the queue under the number of their frame. -/
theorem queued_of_found {localPorts : PortSet} (hundelayed : Undelayed localPorts queues)
    (hremote : localPorts.contains port = false)
    (h : pump? coder port frame ending reads events queues = some pumped)
    (hfound : pumped.result = .ok ())
    : ∃ q buttons, pumped.queues.get? port = some q ∧ q.initial ≤ frame ∧
        q.frames.get? frame = some buttons := by
  have hundelayed' := hundelayed.stores (stores_pump? h).2
  rcases pump?_cases h with ⟨passed, queues', _, ⟨_, _, _, e, _, hresult⟩ | ⟨e, _, hends⟩⟩
  . simp [hresult] at hfound
  . rw [hfound] at hends
    cases hends with
    | found _ hstored hmentions =>
      rcases (mentions_iff_exists port frame e.keys).1 hmentions with ⟨key, hkey, htarget⟩
      rcases inQueue_of_storeKeys hstored key hkey with ⟨q, x, buttons, hq, _, hx, hinitial, hqueued⟩
      simp only [KeyState.target, Prod.mk.injEq] at htarget
      rw [htarget.1] at hq
      rw [hundelayed' port q hremote hq, htarget.2, Int32.toInt_zero, Int.add_zero,
        Int32.toInt_inj] at hx
      subst hx
      exact ⟨q, buttons, hq, hinitial, hqueued⟩

/-- A search that a refusal has ended leaves everything in the queues that came before. -/
theorem inQueue_of_refused {cause : GetError}
    (h : pump? coder port frame ending reads events queues = some pumped)
    (hcause : pumped.result = .error cause) (hrefusal : cause.isRefusal = true)
    : ∃ before e done bad rest, events = before ++ e :: pumped.inbound.events ∧
        e.keys = done ++ bad :: rest ∧
        storeKeys coder [bad] pumped.queues = (.error cause, pumped.queues) ∧
        ∀ key ∈ before.flatMap (·.keys) ++ done, InQueue coder pumped.queues key := by
  rcases pump?_cases h with
    ⟨before, queues', hpasses, ⟨_, _, _, e, _, hresult⟩ | ⟨e, hevents, hends⟩⟩
  . rw [hresult, Except.error.injEq] at hcause
    rw [← hcause] at hrefusal
    simp [GetError.isRefusal] at hrefusal
  . rw [hcause] at hends
    generalize pumped.queues = queues'' at hends ⊢
    cases hends with
    | stopped => simp [GetError.isRefusal] at hrefusal
    | unexpected => simp [GetError.isRefusal] at hrefusal
    | refused _ hrefused =>
      rcases storeKeys_error hrefused with ⟨_, done, bad, rest, hkeys, hdone, hbad⟩
      refine ⟨before, e, done, bad, rest, hevents, hkeys, hbad, ?_⟩
      apply inQueue_of_storeKeys
      rw [storeKeys_append hpasses.stored]
      exact hdone

end Pump

section Reads

variable [Inhabited β] {coder : Coder β} {g : Game β} {port : Port} {frame : Int32}
variable {o : Outcome β GetError β}

theorem Alters.undelayed {a : Action β} {queues : Queues β} (halters : Alters coder g a queues)
    (ha : ∀ port frame, a ≠ .get port frame) (h : Undelayed g.localPorts g.queues)
    : Undelayed g.localPorts queues := by
  cases halters with
  | rest _ => exact h
  | connect _ hconnects => exact h.connects hconnects
  | giveUp _ => exact undelayed_empty g.localPorts
  | put updates =>
    apply storeUpdates_induction coder g.consoleId g.localPorts updates
      (P := fun queues _ => Undelayed g.localPorts queues) _ g.queues [] h
    intro queues done u q q' hundelayed _ hq hput
    exact hundelayed.insert hq (FrameQueue.extends_put hput).delay
  | getLocal _ => exact absurd rfl (ha _ _)
  | getRemote _ _ _ => exact absurd rfl (ha _ _)

theorem undelayed_get? (h : Undelayed g.localPorts g.queues)
    (hget : g.get? coder port frame = some o) : Undelayed g.localPorts o.game.queues := by
  rcases got_get? hget with ⟨read, hgot, _⟩
  have hread := h.stores hgot.stores
  rcases hgot.result with ⟨_, _, heq⟩ | ⟨buttons, q, q', _, hq, hget, heq⟩
  . rw [heq]
    exact hread
  . rw [heq]
    apply hread.insert hq
    rcases FrameQueue.get_eq_ok_iff.1 hget with ⟨_, ⟨_, _, rfl⟩ | ⟨_, _, rfl⟩⟩ <;> rfl

theorem undelayed_act (coder : Coder β) (h : Undelayed g.localPorts g.queues) (a : Action β)
    : Undelayed (g.act coder a).localPorts (g.act coder a).queues := by
  have hacts := acts_act coder g a
  rw [hacts.seat.localPorts]
  cases a with
  | get port frame =>
    unfold act
    dsimp
    cases hget : g.get? coder port frame with
    | none => exact h
    | some o => exact undelayed_get? h hget
  | _ => exact hacts.queues.undelayed (by simp) h

theorem undelayed_run (coder : Coder β) (h : Undelayed g.localPorts g.queues)
    (actions : List (Action β))
    : Undelayed (g.run coder actions).localPorts (g.run coder actions).queues := by
  induction actions generalizing g with
  | nil => exact h
  | cons a rest ih => exact ih (undelayed_act coder h a)

/-- Buttons that wait are given as soon as it is the turn of their frame. -/
theorem InQueue.get? {key : KeyState} (h : InQueue coder g.queues key)
    : ∃ q buttons, g.queues.get? (Port.ofNumber key.port) = some q ∧
        coder.decode key = .ok buttons ∧
        ∀ x : Int32, x.toInt = key.frame.toInt + q.delay.toInt → x = q.latest + 1 →
          ∃ o, g.get? coder (Port.ofNumber key.port) x = some o ∧ o.result = .ok buttons ∧
            o.game.inbound = g.inbound ∧ .keyReadStart ∉ o.timed := by
  rcases h with ⟨q, x, buttons, hq, hdecode, hx, hinitial, hqueued⟩
  refine ⟨q, buttons, hq, hdecode, ?_⟩
  intro x' hx' hnext
  have heq : x' = x := Int32.toInt_inj.1 (hx'.trans hx.symm)
  subst heq
  have hget := FrameQueue.get_eq_ok_iff.2 ⟨hnext, Or.inr ⟨hinitial, hqueued, rfl⟩⟩
  rcases get?_of_queued coder hq hget with ⟨o, ho, hresult, hgame, htimed⟩
  exact ⟨o, ho, hresult, by rw [hgame], htimed⟩

theorem get?_eq_none (hremote : g.localPorts.contains port = false)
    (h : g.get? coder port frame = none)
    : ∃ inbound, g.inbound = some inbound ∧
        pump? coder port frame inbound.ending 0 inbound.events g.queues = none := by
  simp only [get?, hremote, Bool.false_eq_true, ↓reduceIte, Option.map_eq_none_iff] at h
  unfold getRemote? at h
  dsimp at h
  split at h
  . unfold getFromStream? at h
    split at h
    . simp at h
    . next inbound hinbound => exact ⟨inbound, hinbound, Option.map_eq_none_iff.1 h⟩
  . simp at h

/-- What comes of asking for the buttons of a remote port. -/
theorem get?_remote_cases (hundelayed : Undelayed g.localPorts g.queues)
    (hremote : g.localPorts.contains port = false) (h : g.get? coder port frame = some o)
    : (∃ buttons, o.result = .ok buttons) ∨
        (o.game = g ∧ o.timed = [.remoteRequested, .remoteReturned] ∧
          (o.result = .error (.noSuchPort port) ∨ ∃ expected, expected ≠ frame ∧
            o.result = .error (.queue port (.unexpectedFrame frame expected)))) ∨
        (g.inbound = none ∧ o.result = .error (.rpc .streamNotOpen)) ∨
        ∃ inbound pumped cause, g.inbound = some inbound ∧
          pump? coder port frame inbound.ending 0 inbound.events g.queues = some pumped ∧
          pumped.result = .error cause ∧ o.result = .error cause ∧
          o.game.inbound = some pumped.inbound ∧ o.game.queues = pumped.queues := by
  cases hq : g.queues.get? port with
  | none =>
    have hnone : g.getQueued port frame = (.error (.noSuchPort port), g) := by
      simp [getQueued, hq]
    simp only [get?, hremote, getRemote?, hnone, Bool.false_eq_true, ↓reduceIte, Option.map_some,
      Option.some.injEq] at h
    subst h
    exact Or.inr (Or.inl ⟨rfl, rfl, Or.inl rfl⟩)
  | some q =>
    cases hget : q.get frame with
    | ok r =>
      rcases get?_of_queued coder hq hget with ⟨o', ho, hresult, _⟩
      rw [h, Option.some.injEq] at ho
      exact Or.inl ⟨_, ho ▸ hresult⟩
    | error cause =>
      rcases FrameQueue.get_eq_error_iff.1 hget with ⟨hnext, rfl⟩ | ⟨hnext, _, _, rfl⟩
      . have horder : g.getQueued port frame
            = (.error (.queue port (.unexpectedFrame frame (q.latest + 1))), g) := by
          simp [getQueued, hq, hget]
        simp only [get?, hremote, getRemote?, horder, Bool.false_eq_true, ↓reduceIte,
          Option.map_some, Option.some.injEq] at h
        subst h
        exact Or.inr (Or.inl ⟨rfl, rfl, Or.inr ⟨q.latest + 1, hnext.symm, rfl⟩⟩)
      . rw [get?_of_timeout hremote hq hget, Option.map_eq_some_iff] at h
        rcases h with ⟨o', h, rfl⟩
        unfold getFromStream? at h
        split at h
        . next hclosed =>
          rw [Option.some.injEq] at h
          subst h
          exact Or.inr (Or.inr (Or.inl ⟨hclosed, rfl⟩))
        . next inbound hinbound =>
          rw [Option.map_eq_some_iff] at h
          rcases h with ⟨pumped, hpump, rfl⟩
          dsimp
          split
          . next cause hcause =>
            exact Or.inr (Or.inr (Or.inr
              ⟨inbound, pumped, cause, hinbound, hpump, hcause, rfl, rfl, rfl⟩))
          . next hfound =>
            -- The queue that has been asked before is the one that has the buttons now.
            rcases queued_of_found hundelayed hremote hpump hfound with
              ⟨q', buttons, hq', hinitial, hqueued⟩
            rcases ((stores_pump? hpump).2.extendsAll port).2 q hq with ⟨q₁, hq₁, hext⟩
            rw [hq', Option.some.injEq] at hq₁
            subst hq₁
            have hget' := FrameQueue.get_eq_ok_iff.2
              ⟨hext.latest.symm ▸ hnext, Or.inr ⟨hinitial, hqueued, rfl⟩⟩
            refine Or.inl ⟨buttons, ?_⟩
            simp [getQueued, hq', hget']

end Reads

/--
Whatever the other side sends, a remote port is never asked in vain after a message about it was seen.
So a read gives buttons, or it fails before it has looked at the event stream, or it fails because of the
event stream, and without any of this it goes on only as long as the stream is open and all that has
arrived is about something else. If a message is refused, those before it were stored: whoever is the
next to ask for one of these gets the buttons without another look at the stream.
-/
theorem remote_reads_in_time [Inhabited β] (coder : Coder β) {consoleId : ConsoleId}
    {clientId : ClientId} {ports : List Port} {g₀ g : Game β}
    (hcreate : create? consoleId clientId ports = .ok g₀) {actions : List (Action β)}
    (hrun : g₀.run coder actions = g) {port : Port}
    (hremote : g.localPorts.contains port = false) (frame : Int32)
    : (∀ ending events pumped, pump? coder port frame ending 0 events g.queues = some pumped →
        pumped.result = .ok () → ∃ q buttons, pumped.queues.get? port = some q ∧
          q.frames.get? frame = some buttons ∧
          (frame = q.latest + 1 → ∃ q', q.get frame = .ok (buttons, q'))) ∧
      (∀ o, g.get? coder port frame = some o →
        (∃ buttons, o.result = .ok buttons) ∨
          (o.game = g ∧ o.timed = [.remoteRequested, .remoteReturned] ∧
            (o.result = .error (.noSuchPort port) ∨ ∃ expected, expected ≠ frame ∧
              o.result = .error (.queue port (.unexpectedFrame frame expected)))) ∨
          ∃ cause, o.result = .error cause ∧ cause.isOfStream = true) ∧
      (g.get? coder port frame = none → ∃ inbound, g.inbound = some inbound ∧
        inbound.ending = none ∧ ∀ e ∈ inbound.events, e.Plain ∧ mentions port frame e.keys = false) ∧
      ∀ o cause, g.get? coder port frame = some o → o.result = .error cause →
        cause.isRefusal = true →
        ∃ before e done bad rest, g.unread = before ++ e :: o.game.unread ∧
          e.keys = done ++ bad :: rest ∧
          storeKeys coder [bad] o.game.queues = (.error cause, o.game.queues) ∧
          ∀ key ∈ before.flatMap (·.keys) ++ done, ∃ q buttons,
            o.game.queues.get? (Port.ofNumber key.port) = some q ∧
            coder.decode key = .ok buttons ∧
            (g.localPorts.contains (Port.ofNumber key.port) = false → q.delay = 0) ∧
            ∀ x : Int32, x.toInt = key.frame.toInt + q.delay.toInt → x = q.latest + 1 →
              ∃ o', o.game.get? coder (Port.ofNumber key.port) x = some o' ∧
                o'.result = .ok buttons ∧ o'.game.inbound = o.game.inbound ∧
                .keyReadStart ∉ o'.timed := by
  have hundelayed : Undelayed g.localPorts g.queues := by
    have hnew : Undelayed g₀.localPorts g₀.queues := by
      rw [create?_eq_ok hcreate]
      exact undelayed_empty _
    rw [← hrun]
    exact undelayed_run coder hnew actions
  refine ⟨?_, ?_, ?_, ?_⟩
  . intro ending events pumped hpump hfound
    rcases queued_of_found hundelayed hremote hpump hfound with ⟨q, buttons, hq, hinitial, hqueued⟩
    refine ⟨q, buttons, hq, hqueued, ?_⟩
    intro hnext
    exact ⟨_, FrameQueue.get_eq_ok_iff.2 ⟨hnext, Or.inr ⟨hinitial, hqueued, rfl⟩⟩⟩
  . intro o ho
    rcases get?_remote_cases hundelayed hremote ho with
      hok | hrefused | ⟨_, hclosed⟩ | ⟨inbound, pumped, cause, _, hpump, hcause, hresult, _⟩
    . exact Or.inl hok
    . exact Or.inr (Or.inl hrefused)
    . exact Or.inr (Or.inr ⟨_, hclosed, rfl⟩)
    . exact Or.inr (Or.inr ⟨cause, hresult, isOfStream_of_pump? hpump hcause⟩)
  . intro hwaiting
    rcases get?_eq_none hremote hwaiting with ⟨inbound, hinbound, hpump⟩
    rcases pump?_eq_none hpump with ⟨hending, queues', hpasses⟩
    exact ⟨inbound, hinbound, hending, fun e he => ⟨hpasses.plain e he, hpasses.other e he⟩⟩
  . intro o cause ho hresult hrefusal
    rcases get?_remote_cases hundelayed hremote ho with
      ⟨buttons, hok⟩ | ⟨_, _, hnone | ⟨_, _, horder⟩⟩ | ⟨_, hclosed⟩ |
        ⟨inbound, pumped, cause', hinbound, hpump, hcause, hresult', hinbound', hqueues⟩
    . simp [hok] at hresult
    . rw [hnone, Except.error.injEq] at hresult
      simp [← hresult, GetError.isRefusal] at hrefusal
    . rw [horder, Except.error.injEq] at hresult
      simp [← hresult, GetError.isRefusal] at hrefusal
    . rw [hclosed, Except.error.injEq] at hresult
      simp [← hresult, GetError.isRefusal] at hrefusal
    . rw [hresult', Except.error.injEq] at hresult
      subst hresult
      have hunread : g.unread = inbound.events := by simp [unread, hinbound]
      have hunread' : o.game.unread = pumped.inbound.events := by simp [unread, hinbound']
      have hundelayed' := undelayed_get? hundelayed ho
      rcases inQueue_of_refused hpump hcause hrefusal with
        ⟨before, e, done, bad, rest, hevents, hkeys, hbad, hqueued⟩
      rw [← hqueues] at hbad hqueued
      refine ⟨before, e, done, bad, rest, ?_, hkeys, hbad, ?_⟩
      . rw [hunread, hunread']
        exact hevents
      . intro key hkey
        rcases (hqueued key hkey).get? with ⟨q, buttons, hq, hdecode, hget⟩
        exact ⟨q, buttons, hq, hdecode, fun hother => hundelayed' _ q hother hq, hget⟩

/-- Buttons of port 2, the second time together with buttons of a port that does not take part. -/
def tangled : List IncomingEvent :=
  [{ keys := [{ port := 2, xAxis := 7 }] },
    { keys := [{ port := 2, frame := 1, xAxis := 8 }, { port := 3 }] }]

def untangled : List (Action UInt32) :=
  [.readyAndAwaitStart (.ok opening), .deliver tangled, .get .two 0]

/-- The next read of port 2 fails, but the buttons that it was to read can be had afterwards. -/
theorem remote_reads_in_time_tangled
    : ∃ o, (soloist.run .word untangled).get? .word .two 1 = some o ∧
        o.result = .error (.invalidButtons (.unconnectedPort .three)) ∧
        ∃ o', o.game.get? .word .two 1 = some o' ∧ o'.result = .ok 8 ∧ .keyReadStart ∉ o'.timed := by
  have hcreate : create? ⟨1⟩ ⟨1⟩ [.one] = .ok soloist := by rfl
  have hunread : (soloist.run .word untangled).unread = tangled.drop 1 := by decide +kernel
  have hfails : ((soloist.run .word untangled).get? .word .two 1).map
      (fun o => (o.result, (o.game.queues.get? .two).map (·.latest)))
        =
      some (.error (.invalidButtons (.unconnectedPort .three)), some 0) := by
    rfl
  simp only [Option.map_eq_some_iff, Prod.mk.injEq] at hfails
  rcases hfails with ⟨o, ho, hresult, q, hq, hlatest⟩
  rcases (remote_reads_in_time .word hcreate rfl rfl 1).2.2.2 o _ ho hresult rfl with
    ⟨before, e, done, bad, rest, hsplit, hkeys, hbad, hqueued⟩
  refine ⟨o, ho, hresult, ?_⟩
  rw [hunread] at hsplit
  have hevent : before = [] ∧ e = { keys := [{ port := 2, frame := 1, xAxis := 8 }, { port := 3 }] } := by
    cases before with
    | nil => simp_all [tangled]
    | cons e' before => simp [tangled] at hsplit
  rcases hevent with ⟨rfl, rfl⟩
  cases done with
  | nil =>
    -- The first message can not be the one that is of no port.
    simp only [List.nil_append, List.cons.injEq] at hkeys
    rw [← hkeys.1] at hbad
    have hport : Port.ofNumber 2 = .two := rfl
    simp only [storeKeys, hport, hq, Coder.word] at hbad
    split at hbad <;> simp at hbad
  | cons key done =>
    simp only [List.cons_append, List.cons.injEq] at hkeys
    rcases hqueued key (by simp) with ⟨q', buttons, hq', hdecode, hdelay, hget⟩
    rw [← hkeys.1] at hq' hdecode hdelay hget
    have heq : q' = q := Option.some.inj (hq'.symm.trans hq)
    subst heq
    rcases hget 1 (by rw [hdelay rfl]; rfl) (by rw [hlatest]; rfl) with ⟨o', ho', hresult', _, htimed⟩
    have hvalue : 8 = buttons := Except.ok.inj hdecode
    exact ⟨o', ho', hvalue ▸ hresult', htimed⟩

end Game
end PadRelay
