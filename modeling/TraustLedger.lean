import TraustLedger.Library.Hashing
import TraustLedger.Library.Sha256
import TraustLedger.Library.MerkleTree
import TraustLedger.Library.MerkleInclusion
import TraustLedger.Library.ConsistencyWalk
import TraustLedger.Library.MerkleConsistency
import TraustLedger.Library.PyText
import TraustLedger.Library.Json
import TraustLedger.Library.OrderedDicts
import TraustLedger.Library.JsonText
import TraustLedger.Library.Runs
import TraustLedger.Library.SharedFiles
import TraustLedger.Library.Deltas
import TraustLedger.Library.Logs
import TraustLedger.Library.StableSort
import TraustLedger.Library.Trimming
import TraustLedger.Library.Chains
import TraustLedger.Library.Delimiters
import TraustLedger.Library.KeyedTables
import TraustLedger.Library.GuardedCalls
import TraustLedger.Errors
import TraustLedger.Restatements
import TraustLedger.Identity
import TraustLedger.FingerprintHandler
import TraustLedger.Layer
import TraustLedger.Integrity.Merkle
import TraustLedger.Integrity.Signing
import TraustLedger.Integrity.SigningTools
import TraustLedger.Integrity.Ledger
import TraustLedger.Gates
import TraustLedger.Disposition
import TraustLedger.Events
import TraustLedger.Writer
import TraustLedger.Storage
import TraustLedger.WriterCalls
import TraustLedger.Findings
import TraustLedger.Backends.Records
import TraustLedger.Backends.Database
import TraustLedger.Backends.Sessions
import TraustLedger.Handlers
import TraustLedger.System
import TraustLedger.Batches
import TraustLedger.Verification
import TraustLedger.Backends.FileClients
import TraustLedger.Projection
import TraustLedger.Queries
import TraustLedger.Auth.Tokens
import TraustLedger.Auth.Credentials
import TraustLedger.Auth.Commands
import TraustLedger.Auth.Callers
import TraustLedger.Auth.Clients
import TraustLedger.Backends.Guards
import TraustLedger.Proofs.MerkleProofs
import TraustLedger.Proofs.RecordProofs
import TraustLedger.Proofs.TableProofs
import TraustLedger.Proofs.StampProofs
import TraustLedger.Proofs.SignatureBinding
import TraustLedger.Proofs.RestatementProofs
import TraustLedger.Proofs.PinnedEntries
import TraustLedger.Proofs.WriterProofs
import TraustLedger.Proofs.DatabaseProofs
import TraustLedger.Proofs.DocumentStore
import TraustLedger.Proofs.LayerDocuments
import TraustLedger.Proofs.DoorProofs
import TraustLedger.Proofs.EntryProofs
import TraustLedger.Proofs.ReferenceEnv
import TraustLedger.Proofs.ExplainedChanges
import TraustLedger.Proofs.ChainIntegrity
import TraustLedger.Proofs.RetiredValues
import TraustLedger.Proofs.RestatementAuthority
import TraustLedger.Proofs.WrittenLayers
import TraustLedger.Proofs.AppendOnly
import TraustLedger.Proofs.BackendAgreement
import TraustLedger.Proofs.LostUpdates
import TraustLedger.Proofs.FinalizedLayers
import TraustLedger.Proofs.SignedLayers
import TraustLedger.Proofs.StaleSignatures
import TraustLedger.Proofs.SignatureDowngrade
import TraustLedger.Proofs.ForwardProgress
import TraustLedger.Proofs.BatchReports
import TraustLedger.Proofs.HumanDecisions
import TraustLedger.Proofs.FileConcurrency
import TraustLedger.Proofs.EpochChecks
import TraustLedger.Proofs.WriterLog
import TraustLedger.Proofs.AtomicSubmission
import TraustLedger.Proofs.SigningDoors
import TraustLedger.Proofs.Precedence
import TraustLedger.Proofs.InstantOrder
import TraustLedger.Proofs.TwoPersons
import TraustLedger.Proofs.FindingGroups
import TraustLedger.Proofs.AliasChains
import TraustLedger.Proofs.SameFinding
import TraustLedger.Proofs.FindingPartition
import TraustLedger.Proofs.MovedFields
import TraustLedger.Proofs.EventIds
import TraustLedger.Proofs.ReviewQueue
import TraustLedger.Proofs.ReviewOutcomes
import TraustLedger.Proofs.CanonicalTexts
import TraustLedger.Proofs.FingerprintParts
import TraustLedger.Proofs.RepoSpellings
import TraustLedger.Proofs.ReportWording
import TraustLedger.Proofs.FindingIdentity
import TraustLedger.Proofs.PathForms
import TraustLedger.Proofs.CopiedStamps
import TraustLedger.Proofs.StampAttribution
import TraustLedger.Proofs.FingerprintEndpoint
import TraustLedger.Proofs.PagedFindings
import TraustLedger.Proofs.IncrementalPolls
import TraustLedger.Proofs.LayerIdGrammar
import TraustLedger.Proofs.ImportOutcomes
import TraustLedger.Proofs.MigrationPreview
import TraustLedger.Proofs.ExactImports
import TraustLedger.Proofs.ManifestSelection
import TraustLedger.Proofs.ArtifactOwnership
import TraustLedger.Proofs.ReportDigests
import TraustLedger.Proofs.ExitStatus
import TraustLedger.Proofs.MaterializedFindings
import TraustLedger.Proofs.RedactedTargets
import TraustLedger.Proofs.LayerFilters
import TraustLedger.Proofs.LayerListings
import TraustLedger.Proofs.CredentialFiles
import TraustLedger.Proofs.ConfiguredProviders
import TraustLedger.Proofs.InheritedKinds
import TraustLedger.Proofs.DirectoryChecks
import TraustLedger.Proofs.TrustedIssuers
import TraustLedger.Proofs.AuthorisedRestatements
import TraustLedger.Proofs.RecordedActors
import TraustLedger.Proofs.CarriedClaims
import TraustLedger.Proofs.ClientIdentities
import TraustLedger.Proofs.GuardedHistory
import TraustLedger.Proofs.PublishedSignatures
import TraustLedger.Proofs.IdentitySignatures
import TraustLedger.Proofs.EventPages
