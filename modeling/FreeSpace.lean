import FreeSpace.Action
import FreeSpace.Bytes
import FreeSpace.Bytes.Difference
import FreeSpace.Checksum
import FreeSpace.Error
import FreeSpace.Event
import FreeSpace.Location
import FreeSpace.LocationTable
import FreeSpace.Log
import FreeSpace.Log.Filter
import FreeSpace.Log.Line
import FreeSpace.Log.Terminal
import FreeSpace.Memory
import FreeSpace.PageType
import FreeSpace.Proofs.BarePage
import FreeSpace.Proofs.CallAnswers
import FreeSpace.Proofs.CallEffects
import FreeSpace.Proofs.CallSteps
import FreeSpace.Proofs.ChecksumAlgebra
import FreeSpace.Proofs.ChecksumOfZeros
import FreeSpace.Proofs.CleanRecords
import FreeSpace.Proofs.CountRange
import FreeSpace.Proofs.FaultFree
import FreeSpace.Proofs.FiledRecords
import FreeSpace.Proofs.FixedStores
import FreeSpace.Proofs.FrameDamage
import FreeSpace.Proofs.FrameDecoding
import FreeSpace.Proofs.Frames
import FreeSpace.Proofs.Opening
import FreeSpace.Proofs.PageRuns
import FreeSpace.Proofs.ReachedPages
import FreeSpace.Proofs.RecordChanges
import FreeSpace.Proofs.RecordFile
import FreeSpace.Proofs.Refusals
import FreeSpace.Proofs.RelatedSearches
import FreeSpace.Proofs.ReportedSizes
import FreeSpace.Proofs.RowCalls
import FreeSpace.Proofs.RowClaims
import FreeSpace.Proofs.RowCount
import FreeSpace.Proofs.RowEntries
import FreeSpace.Proofs.RowOrder
import FreeSpace.Proofs.RowOwners
import FreeSpace.Proofs.RowTable
import FreeSpace.Proofs.SearchAnswers
import FreeSpace.Proofs.SizeCache
import FreeSpace.Proofs.StoredRows
import FreeSpace.Proofs.TableRuns
import FreeSpace.Record
import FreeSpace.Record.Call
import FreeSpace.Record.Header
import FreeSpace.Reply
import FreeSpace.RowLayout
import FreeSpace.Session
import FreeSpace.SlotPage
import FreeSpace.SlotPage.Call
import FreeSpace.SlotPage.Fill
import FreeSpace.SlotPage.Rows
import FreeSpace.SlotPage.Search
import FreeSpace.Store
import FreeSpace.Store.Frame
import FreeSpace.Text.Blank
import FreeSpace.Text.Hex
import FreeSpace.Version
import FreeSpace.Word
import FreeSpace.Proofs.PageFills
import FreeSpace.Proofs.PagesOfSizes
import FreeSpace.Proofs.LocationRows
import FreeSpace.Proofs.RowAddresses
import FreeSpace.Proofs.SafeOffsets
import FreeSpace.Proofs.SignedSearches
import FreeSpace.Proofs.AcceptedRecords
import FreeSpace.Proofs.FramePositions
import FreeSpace.Proofs.LastWrites
import FreeSpace.Proofs.SizeReads
