import PadRelay.Proofs.Server.Bindings

/-!
This module contains the theory of the streams of a server: there are only ever more of them, and a
stream belongs to the client that it was bound to for good.
-/

namespace PadRelay
namespace Server

theorem streams_dispatch (s : Server) (b : Binding) (e : OutgoingEvent)
    : (s.dispatch b e).streams = s.streams := by
  unfold dispatch
  split <;> rfl

theorem streams_replyAnonymous (s : Server) (stream : EventStream) (consoleId : Int64)
    (status : InvalidDataStatus) : (s.replyAnonymous stream consoleId status).streams = s.streams := by
  unfold replyAnonymous
  split <;> rfl

theorem streams_perform {s : Server} {a : Act} (hopen : a ≠ .openStream)
    (hbind : ∀ i ready, a ≠ .bind i ready) (hclose : ∀ i, a ≠ .close i)
    : (s.perform a).streams = s.streams := by
  cases a with
  | openStream => exact absurd rfl hopen
  | bind i ready => exact absurd rfl (hbind i ready)
  | close i => exact absurd rfl (hclose i)
  | plug k delay requested romHash => exact (perform_plug_frame s k delay requested romHash).2
  | start k =>
    unfold perform
    dsimp
    split
    . rfl
    . split <;> rfl
  | stop k =>
    unfold perform
    dsimp
    split <;> rfl
  | reply i consoleId status =>
    unfold perform
    dsimp
    split
    . rfl
    . exact streams_replyAnonymous s _ consoleId status
  | handle i e =>
    unfold perform
    dsimp
    split
    . rfl
    . exact streams_dispatch s _ e
  | _ => rfl

theorem streams_closeStream {s : Server} {i : Nat} {stream : EventStream}
    (hstream : s.streams[i]? = some stream)
    : (s.closeStream i).streams
        =
      (s.setStream i
        { stream with sink := none, isOpen := false, partialFrame := [] }).streams := by
  unfold closeStream
  rw [hstream]
  dsimp
  split
  . split <;> rfl
  . split <;> rfl

theorem length_streams_perform (s : Server) (a : Act)
    : (s.perform a).streams.length = s.streams.length + if a = .openStream then 1 else 0 := by
  cases a with
  | openStream => simp [perform, openStream]
  | bind i ready =>
    unfold perform
    dsimp
    split
    . simp
    . split
      . simp
      . next hbind =>
        rcases bind?_eq_ok hbind with ⟨_, _, _, _, _, _, _, _, rfl⟩
        simp [setStream]
  | close i =>
    unfold perform
    dsimp
    cases hstream : s.streams[i]? with
    | none => simp [closeStream, hstream]
    | some stream =>
      rw [streams_closeStream hstream]
      simp [setStream]
  | _ => rw [streams_perform] <;> simp

theorem boundTo_setStream {s : Server} {j : Nat} {stream : EventStream}
    (hstream : s.streams[j]? = some stream) (stream' : EventStream) (i : Nat)
    : (s.setStream j stream').boundTo i = if j = i then stream'.binding else s.boundTo i := by
  unfold boundTo
  rw [getElem?_setStream hstream]
  split <;> rfl

theorem boundTo_closeStream (s : Server) (j i : Nat)
    : (s.closeStream j).boundTo i = s.boundTo i := by
  cases hstream : s.streams[j]? with
  | none => simp [closeStream, hstream]
  | some stream =>
    have hset := boundTo_setStream hstream
      { stream with sink := none, isOpen := false, partialFrame := [] } i
    unfold boundTo at hset ⊢
    rw [streams_closeStream hstream, hset]
    split
    . next heq => simp [← heq, hstream]
    . rfl

theorem boundTo_perform_cases (s : Server) (a : Act) (i : Nat)
    : (s.perform a).boundTo i = s.boundTo i ∨
        ∃ ready stream b s', a = .bind i ready ∧ s.streams[i]? = some stream ∧
          s.bind? i stream ready = .ok (b, s') ∧ (s.perform a).boundTo i = some b := by
  cases a with
  | openStream => exact Or.inl (boundTo_openStream s i)
  | close j => exact Or.inl (boundTo_closeStream s j i)
  | bind j ready =>
    unfold perform
    dsimp
    split
    . exact Or.inl rfl
    . next stream hstream =>
      split
      . exact Or.inl rfl
      . next b s' hbind =>
        by_cases heq : j = i
        . subst heq
          exact Or.inr ⟨ready, stream, b, s', rfl, hstream, hbind, boundTo_of_bind? hstream hbind⟩
        . left
          rcases bind?_eq_ok hbind with ⟨_, _, _, _, _, _, _, _, rfl⟩
          apply (boundTo_setStream hstream _ i).trans
          rw [if_neg heq]
  | _ =>
    left
    unfold boundTo
    rw [streams_perform] <;> simp

theorem boundTo_perform {s : Server} (h : s.Consistent) {i : Nat} {b : Binding}
    (hb : s.boundTo i = some b) (a : Act) : (s.perform a).boundTo i = some b := by
  rcases boundTo_perform_cases s a i with heq | ⟨ready, stream, b', s', _, hstream, hbind, _⟩
  . rw [heq, hb]
  . rcases bind?_eq_ok hbind with ⟨_, _, _, _, _, _, _, hsink, _⟩
    rw [boundTo_eq_some_iff] at hb
    rcases hb with ⟨stream', hstream', hb⟩
    rw [hstream, Option.some.injEq] at hstream'
    rw [← hstream', (h.sink i stream _ hstream hsink).2.1] at hb
    simp at hb

theorem consistent_performAll {s : Server} (h : s.Consistent) (acts : List Act)
    : (s.performAll acts).Consistent := by
  induction acts generalizing s with
  | nil => exact h
  | cons a acts ih => exact ih (consistent_perform h a)

theorem boundTo_performAll {s : Server} (h : s.Consistent) {i : Nat} {b : Binding}
    (hb : s.boundTo i = some b) (acts : List Act) : (s.performAll acts).boundTo i = some b := by
  induction acts generalizing s with
  | nil => exact hb
  | cons a acts ih => exact ih (consistent_perform h a) (boundTo_perform h hb a)

end Server
end PadRelay
