import ElfLens.Config.Document
import ElfLens.Snapshot
import ElfLens.Proofs.ChainWalk
import ElfLens.Proofs.Reading
import ElfLens.Proofs.Record
import ElfLens.Proofs.SymbolSearch
import ElfLens.Proofs.Packing
import ElfLens.Proofs.SymbolDirectory
import ElfLens.Proofs.DirectoryLookup
import ElfLens.Proofs.DisplacedImage
import ElfLens.Proofs.PositionIndependence
import ElfLens.Proofs.ImageHead
import ElfLens.Proofs.BackingFile
import ElfLens.Proofs.ReportedAddresses
import ElfLens.Proofs.ImageConstruction
import ElfLens.Proofs.SymbolPlacement
import ElfLens.Proofs.LoadedFile
import ElfLens.Proofs.SnapshotImages
import ElfLens.Proofs.ReadInPlace
import ElfLens.Proofs.SnapshotAnswers
import ElfLens.Proofs.WordReading
import ElfLens.Proofs.RegionRecords
import ElfLens.Proofs.HeaderAcceptance
import ElfLens.Proofs.RecordTables
import ElfLens.Proofs.TrappingWords
import ElfLens.Proofs.TrappingHash
import ElfLens.Proofs.TrappingReading
import ElfLens.Proofs.SnapshotRanges
import ElfLens.Proofs.ConfigDocuments
import ElfLens.Proofs.ByteReaders
import ElfLens.Proofs.ChainSearch
import ElfLens.Proofs.TagOrder
import ElfLens.Proofs.MissingTables
import ElfLens.Proofs.SlotSearch
import ElfLens.Proofs.SymbolEnumeration
import ElfLens.Proofs.StubDerivation
import ElfLens.Proofs.RegionCoverage
import ElfLens.Proofs.FileTables
import ElfLens.Proofs.HashAccumulator
import ElfLens.Proofs.StaticLookup
import ElfLens.Proofs.ArrayEnd
import ElfLens.Proofs.ReadLimits
import ElfLens.Proofs.EffectiveAddress
