import TraustLedger.Handlers

namespace LedgerModel

open Python Runs

inductive Call where
  | restate (moment : Moment) (layerId : String) (block : Dict) (rationale : String) (actor : LayerActor)
      (recordedAt : String)
  | patch (moment : Moment) (layerId : String) (updates : Dict)
  | submitEvent (moment : Moment) (kind : String) (event : Dict) (actor : LayerActor)
  | submitBatch (moment : Moment) (layerId : String) (body : BatchSubmitRequest) (actor : LayerActor)
  | cmdSubmitEvents (layerId : String) (events : List Json) (actor : LayerActor)
  | cmdSubmitQueue (layerId sourceRef : String) (queue : List Json) (actor : LayerActor)
  | stampIdentities (moment : Moment) (layerId : String) (fingerprints : List (String × String))
  | sign (moment : Moment) (layerId : String)
  | signEndpoint (moment : Moment) (layerId : String) (rekor : Bool)
  | resolve (moment : Moment) (layerId : String) (key : Option Json) (decision note : String)

def step (env : Env) (layer : Layer) : Call → Outcome Layer
  | .restate moment layerId block rationale actor recordedAt =>
    Prod.fst <$> applyRestatement env moment layerId block rationale actor recordedAt layer
  | .patch moment layerId updates => Prod.fst <$> patchMetadata env moment layerId updates layer
  | .submitEvent moment kind event actor => Prod.fst <$> LedgerModel.submitEvent env moment kind event actor layer
  | .submitBatch moment layerId body actor =>
    Prod.fst <$> LedgerModel.submitBatch env moment layerId body actor layer
  | .cmdSubmitEvents layerId events actor => Prod.fst <$> LedgerModel.cmdSubmitEvents env layerId events actor layer
  | .cmdSubmitQueue layerId sourceRef queue actor =>
    Prod.fst <$> LedgerModel.cmdSubmitQueue env layerId sourceRef queue actor layer
  | .stampIdentities moment layerId fingerprints =>
    Prod.fst <$> stampEventIdentities env moment layerId fingerprints layer
  | .sign moment layerId => Prod.fst <$> LedgerModel.sign env moment layerId layer
  | .signEndpoint moment layerId rekor => Prod.fst <$> signLayerEndpoint env moment layerId rekor layer
  | .resolve moment layerId key decision note => LedgerModel.resolve env moment layerId key decision note layer

structure Tools where
  signers : Signers
  publishing : Signers

def Env.withTools (env : Env) (tools : Tools) : Env :=
  { env with signers := tools.signers, publishing := tools.publishing }

def stepWith (env : Env) (layer : Layer) (call : Tools × Call) : Outcome Layer :=
  step (env.withTools call.1) layer call.2

def Reachable (env : Env) (layer : Layer) : Prop :=
  ∃ layerId shell start calls, initializeLayer env layerId none shell = .ok start ∧
    run (step env) start calls = layer

end LedgerModel
