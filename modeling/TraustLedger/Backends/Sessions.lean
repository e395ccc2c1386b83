import TraustLedger.Backends.Database
import Mathlib.Logic.Function.Basic

namespace LedgerModel

open Hashing Python Runs

inductive Side where
  | left
  | right
  deriving DecidableEq

def Side.other : Side → Side
  | .left => .right
  | .right => .left

/-- How far a `mutate` call has come on SQLite, where the read takes no lock: not begun, its document read and
    changed, or committed. -/
inductive Phase where
  | idle
  | loaded (read written : Document) (record : LayerRecord)
  | returned (read written : Document)

structure Sessions where
  tables : Tables
  phase : Side → Phase

def Sessions.start (tables : Tables) : Sessions := ⟨tables, fun _ => .idle⟩

namespace DbEnv

variable (env : DbEnv) (layerId : String)

def loadStep (mutator : Document → Outcome Document) (tables : Tables) :
    Outcome (Document × Document × LayerRecord) := do
  match ← env.load tables layerId with
  | none => .error (.layerNotInitialized ("layer " ++ pyRepr (.str layerId) ++
      " is not initialized; provide a complete layer shell"))
  | some data =>
    let written ← mutator data
    env.validateLayer written
    let record ← LayerRecord.fromDocument written
    return (data, written, record)

def sessionStep (mutators : Side → Document → Outcome Document) (sessions : Sessions) (side : Side) :
    Outcome Sessions :=
  match sessions.phase side with
  | .idle => do
    let (read, written, record) ← env.loadStep layerId (mutators side) sessions.tables
    return { sessions with phase := Function.update sessions.phase side (.loaded read written record) }
  | .loaded read written record => do
    let tables ← env.persist layerId record none sessions.tables
    return ⟨tables, Function.update sessions.phase side (.returned read written)⟩
  | .returned _ _ => return sessions

def interleave (mutators : Side → Document → Outcome Document) (schedule : List Side) (sessions : Sessions) :
    Outcome Sessions :=
  schedule.foldlM (env.sessionStep layerId mutators) sessions

end DbEnv

def Interleaves (schedule : List Side) : Prop := schedule.count .left = 2 ∧ schedule.count .right = 2

instance (schedule : List Side) : Decidable (Interleaves schedule) := inferInstanceAs (Decidable (_ ∧ _))

end LedgerModel
