/-! # Byte strings -/

namespace RecordStore

/-- Payloads, headers and file contents are plain lists of bytes. -/
abbrev Bytes := List UInt8

end RecordStore
