/-!
This module contains the pools of workers that carry out the calls and the stream operations of an
emulator.
-/

namespace PadRelay

structure WorkerPool where
  workers : Nat
  workers_pos : 0 < workers
deriving DecidableEq

inductive WorkerPoolError where
  | noWorkers
deriving DecidableEq, Repr

def WorkerPoolError.label : WorkerPoolError → String
  | noWorkers => "NoWorkers"

def WorkerPoolError.message : WorkerPoolError → String
  | noWorkers => "client runtime needs at least one worker thread"

namespace WorkerPool

def create? (workers : Nat) : Except WorkerPoolError WorkerPool :=
  if h : 0 < workers then .ok ⟨workers, h⟩ else .error .noWorkers

def run {α : Type} (_ : WorkerPool) (task : Unit → α) : α :=
  task ()

end WorkerPool
end PadRelay
