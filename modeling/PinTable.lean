import PinTable.Main
import PinTable.Proofs.Build
import PinTable.Proofs.Build.Failure
import PinTable.Proofs.Build.Warnings
import PinTable.Proofs.DeviceTable
import PinTable.Proofs.Listing.Alike
import PinTable.Proofs.Listing.ArraySymbols
import PinTable.Proofs.Listing.Blocks
import PinTable.Proofs.Listing.BusGraph
import PinTable.Proofs.Listing.BusSymbols
import PinTable.Proofs.Listing.ChipReferences
import PinTable.Proofs.Listing.ClockLines
import PinTable.Proofs.Listing.Counterparts
import PinTable.Proofs.Listing.DefinitionOrder
import PinTable.Proofs.Listing.Identifiers
import PinTable.Proofs.Listing.Initialization
import PinTable.Proofs.Listing.Layout
import PinTable.Proofs.Listing.PinData
import PinTable.Proofs.Listing.TagConstants
import PinTable.Proofs.Listing.TagLists
import PinTable.Proofs.Manifest.Fault
import PinTable.Proofs.Manifest.FirstFailure
import PinTable.Proofs.Manifest.Grammar
import PinTable.Proofs.Manifest.Origin
import PinTable.Proofs.Manifest.Places
import PinTable.Proofs.Manifest.Pruned
import PinTable.Proofs.Manifest.Rearranged
import PinTable.Proofs.Manifest.TextOrder
import PinTable.Proofs.Path.Target
import PinTable.Proofs.Reading.Aggregate
import PinTable.Proofs.Settings.Once
import PinTable.Proofs.Settings.Speed
import PinTable.Proofs.Signal.Index
import PinTable.Proofs.Symbol
import PinTable.Proofs.TagChains
import PinTable.Proofs.Text.Integer
import PinTable.Proofs.Wiring
