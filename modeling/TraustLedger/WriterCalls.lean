import TraustLedger.Storage

namespace LedgerModel

open Hashing Python Runs

def assignAll (metadata updates : Dict) : Dict :=
  updates.items.foldl (fun held entry => assign held entry.1 entry.2) metadata

/-- `append_restatement` up to its finalizer, with any updates: they are computed from the layer that already
    holds the event. -/
def restateWith (H : HashFunction) (layer : Layer) (event : Dict) (metadataUpdates : Layer → Outcome Dict) :
    Outcome (Layer × String) := do
  let snapshot := layer.metadata
  let (appended, id) ← appendOne H layer event
  let updates ← metadataUpdates appended
  let changed := { appended with metadata := assignAll appended.metadata updates }
  requireRestatementsCoverMetadata changed snapshot event
  return (changed, id)

inductive WriterCall where
  | appendEvent (event : Dict)
  | appendEvents (events : List Dict)
  | appendRestatement (event : Dict) (metadataUpdates : Layer → Outcome Dict) (finalize : Option Moment)
      (beforeAppend : Layer → Outcome Unit)

def WriterCall.apply (env : Env) (layerId : String) (layer : Layer) : WriterCall → Outcome (Layer × List String)
  | .appendEvent event => do
    let (appended, id) ← appendOne env.hash layer event
    return (appended, [id])
  | .appendEvents events => appendMany env.hash layer events
  | .appendRestatement event metadataUpdates finalize beforeAppend => do
    beforeAppend layer
    let (changed, id) ← restateWith env.hash layer event metadataUpdates
    match finalize with
    | none => return (changed, [id])
    | some moment =>
      let (finalized, _) ← finalizeLayer env moment layerId changed
      return (finalized, [id])

def writerStep (env : Env) (layerId : String) (layer : Layer) (call : WriterCall) : Outcome Layer :=
  Prod.fst <$> mutate env layerId (fun layer => call.apply env layerId layer) layer

end LedgerModel
