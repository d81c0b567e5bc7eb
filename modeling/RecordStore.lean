import RecordStore.Address.Json
import RecordStore.Disk.Edit
import RecordStore.Main
import RecordStore.Metadata
import RecordStore.Store.Step
import RecordStore.StreamInfo
import RecordStore.Proofs.Change
import RecordStore.Proofs.Choice
import RecordStore.Proofs.Conservation
import RecordStore.Proofs.Lifecycle
import RecordStore.Proofs.Returns
import RecordStore.Proofs.SegmentLife
import RecordStore.Proofs.Ownership
import RecordStore.Proofs.Directory
import RecordStore.Proofs.Exclusion
import RecordStore.Proofs.Locking
import RecordStore.Proofs.Pipeline
import RecordStore.Proofs.Image
import RecordStore.Proofs.TwoPhase
import RecordStore.Proofs.ReadBack
import RecordStore.Proofs.Durability
import RecordStore.Proofs.AppendOnly
import RecordStore.Proofs.TornRead
import RecordStore.Proofs.Log
import RecordStore.Proofs.Failure
import RecordStore.Proofs.HeaderClear
import RecordStore.Proofs.Creation
import RecordStore.Proofs.Scheduling
import RecordStore.Proofs.GrantOrder
import RecordStore.Proofs.Settled
import RecordStore.Proofs.Interference
import RecordStore.Proofs.Availability
import RecordStore.Proofs.Frontier
import RecordStore.Proofs.NextGrant
import RecordStore.Proofs.Confinement
import RecordStore.Proofs.Interleaving
import RecordStore.Proofs.Calls
import RecordStore.Proofs.Turns
import RecordStore.Proofs.Commuting
import RecordStore.Proofs.Opening
import RecordStore.Proofs.Bootstrap
import RecordStore.Proofs.Cursor
import RecordStore.Proofs.Numerals
import RecordStore.Proofs.Texts
import RecordStore.Proofs.Grammar
import RecordStore.Proofs.Errand
import RecordStore.Proofs.Effect
import RecordStore.Proofs.PutGet
import RecordStore.Proofs.Placement
import RecordStore.Proofs.Additions
import RecordStore.Proofs.FreshDatabase
import RecordStore.Proofs.Balance
import RecordStore.Proofs.AddressSpace
import RecordStore.Proofs.Totals
import RecordStore.Proofs.Filling
import RecordStore.Proofs.MagicTag
import RecordStore.Proofs.Verifying
import RecordStore.Proofs.JsonGrammar
import RecordStore.Proofs.JsonReading
import RecordStore.Proofs.JsonPrinting
import RecordStore.Proofs.Overrides
import RecordStore.Proofs.RoundTrip
