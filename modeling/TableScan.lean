import TableScan.Main
import TableScan.Proofs.Preparation
import TableScan.Proofs.Construction
import TableScan.Proofs.StrategyRule
import TableScan.Proofs.Run
import TableScan.Proofs.Release
import TableScan.Proofs.NativeLibraries
import TableScan.Proofs.TypeLexicon
import TableScan.Proofs.TypeGrammar
import TableScan.Proofs.TypeReading
import TableScan.Proofs.TypeRoundTrip
import TableScan.Proofs.WritableTypes
import TableScan.Proofs.TopLevelPieces
import TableScan.Proofs.Independence
import TableScan.Proofs.CloseFaults
import TableScan.Proofs.JsonReading
import TableScan.Proofs.Codec
import TableScan.Proofs.Documents
import TableScan.Proofs.FreeValues
import TableScan.Proofs.SubScans
import TableScan.Proofs.Order
import TableScan.Proofs.Layers
import TableScan.Proofs.Prediction
import TableScan.Proofs.Consultation
import TableScan.Proofs.TransactionalMark
import TableScan.Proofs.Paths
import TableScan.Proofs.PendingDeltas
import TableScan.Proofs.SchemaTypes
import TableScan.Proofs.SchemaLayouts
import TableScan.Proofs.Drift
import TableScan.Proofs.WidenedReaders
import TableScan.Proofs.SchemaNodes
import TableScan.Proofs.DecimalScales
import TableScan.Proofs.SoundLayouts
import TableScan.Proofs.WrappedSchemas
import TableScan.Proofs.RespelledTypes
import TableScan.Proofs.RespelledColumns
import TableScan.Proofs.UnrelatedProperties
import TableScan.Proofs.ListedColumns
import TableScan.Proofs.PathSteps
import TableScan.Proofs.ListedDeltas
import TableScan.Proofs.RecordedDeltas
import TableScan.Proofs.DeltaPaths
import TableScan.Proofs.CutShort
