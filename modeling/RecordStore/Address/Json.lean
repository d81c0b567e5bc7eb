import RecordStore.Address
import RecordStore.Json.Parser
import RecordStore.Json.Printer

/-! # Addresses as JSON: the bare word -/

namespace RecordStore.Address

def ofJson (text : String) : Option Address :=
  ((Json.parse text.toList).bind Json.Value.word?).map fun raw => ⟨raw⟩

def toJson (a : Address) : String := String.ofList (Json.ofWord a.raw)

end RecordStore.Address
