import RecordStore.Error

/-!
# Stream metadata

Registration, annotations and superblocks of streams belong to the interface of a storage provider.
This store keeps none of them and says so.
-/

namespace RecordStore

inductive MetadataOperation where
  | readSuperblock
  | writeSuperblock
  | setStreamVersion
  | getStreamVersion
  | getStreamInfo
  | createStream
  | listCollections
  | listStreams
  | setStreamAnnotation
  | getStreamAnnotation
  deriving DecidableEq, Repr

namespace MetadataOperation

def name : MetadataOperation → String
  | readSuperblock => "read_superblock"
  | writeSuperblock => "write_superblock"
  | setStreamVersion => "set_stream_version"
  | getStreamVersion => "get_stream_version"
  | getStreamInfo => "get_stream_info"
  | createStream => "create_stream"
  | listCollections => "list_collections"
  | listStreams => "list_streams"
  | setStreamAnnotation => "set_stream_annotation"
  | getStreamAnnotation => "get_stream_annotation"

def all : List MetadataOperation :=
  [readSuperblock, writeSuperblock, setStreamVersion, getStreamVersion, getStreamInfo,
    createStream, listCollections, listStreams, setStreamAnnotation, getStreamAnnotation]

def ofName? (name : String) : Option MetadataOperation := all.find? (·.name == name)

/-- Every operation is refused, whatever its arguments. -/
def error (operation : MetadataOperation) : Error := .unsupported operation.name

end MetadataOperation

end RecordStore
