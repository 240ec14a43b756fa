/-!
# Faults of the operating system

A fault of reading, writing or starting something has a kind and a text. `OsFault` lists the
refusals of the operating system that can arise here, with their numbers.
-/

namespace CjsxConversion

/-- The kind of an input or output fault. -/
inductive IoKind where
  | notFound | permissionDenied | connectionRefused | connectionReset | hostUnreachable
  | networkUnreachable | connectionAborted | notConnected | addrInUse | addrNotAvailable
  | networkDown | brokenPipe | alreadyExists | wouldBlock | notADirectory | isADirectory
  | directoryNotEmpty | readOnlyFilesystem | filesystemLoop | staleNetworkFileHandle
  | invalidInput | invalidData | timedOut | writeZero | storageFull | notSeekable
  | quotaExceeded | fileTooLarge | resourceBusy | executableFileBusy | deadlock
  | crossesDevices | tooManyLinks | invalidFilename | argumentListTooLong | interrupted
  | unsupported | unexpectedEof | outOfMemory | other | uncategorized
  deriving DecidableEq, Repr

namespace IoKind

def named : List (String × IoKind) :=
  [("NotFound", .notFound), ("PermissionDenied", .permissionDenied),
   ("ConnectionRefused", .connectionRefused), ("ConnectionReset", .connectionReset),
   ("HostUnreachable", .hostUnreachable), ("NetworkUnreachable", .networkUnreachable),
   ("ConnectionAborted", .connectionAborted), ("NotConnected", .notConnected),
   ("AddrInUse", .addrInUse), ("AddrNotAvailable", .addrNotAvailable),
   ("NetworkDown", .networkDown), ("BrokenPipe", .brokenPipe),
   ("AlreadyExists", .alreadyExists), ("WouldBlock", .wouldBlock),
   ("NotADirectory", .notADirectory), ("IsADirectory", .isADirectory),
   ("DirectoryNotEmpty", .directoryNotEmpty), ("ReadOnlyFilesystem", .readOnlyFilesystem),
   ("FilesystemLoop", .filesystemLoop), ("StaleNetworkFileHandle", .staleNetworkFileHandle),
   ("InvalidInput", .invalidInput), ("InvalidData", .invalidData), ("TimedOut", .timedOut),
   ("WriteZero", .writeZero), ("StorageFull", .storageFull), ("NotSeekable", .notSeekable),
   ("QuotaExceeded", .quotaExceeded), ("FileTooLarge", .fileTooLarge),
   ("ResourceBusy", .resourceBusy), ("ExecutableFileBusy", .executableFileBusy),
   ("Deadlock", .deadlock), ("CrossesDevices", .crossesDevices),
   ("TooManyLinks", .tooManyLinks), ("InvalidFilename", .invalidFilename),
   ("ArgumentListTooLong", .argumentListTooLong), ("Interrupted", .interrupted),
   ("Unsupported", .unsupported), ("UnexpectedEof", .unexpectedEof),
   ("OutOfMemory", .outOfMemory), ("Other", .other), ("Uncategorized", .uncategorized)]

def name (k : IoKind) : String :=
  ((named.find? fun e => e.2 = k).map (·.1)).getD "Other"

def ofName (s : String) : IoKind :=
  ((named.find? fun e => e.1 = s).map (·.2)).getD .other

end IoKind

/-- What went wrong while reading, writing or starting something. -/
structure IoFault where
  kind : IoKind
  message : String
  deriving DecidableEq, Repr

/-- A refusal of the operating system. -/
inductive OsFault where
  | noEntry
  | notExecutable
  | denied
  | exists
  | notDirectory
  | isDirectory
  | notEmpty
  | nameTooLong
  | tooManyLinks
  | busy
  | listTooLong
  | noRoom
  | badDescriptor
  | invalid
  deriving DecidableEq, Repr

namespace OsFault

/-- The number of a refusal. -/
def code : OsFault → Nat
  | .noEntry => 2
  | .listTooLong => 7
  | .notExecutable => 8
  | .badDescriptor => 9
  | .denied => 13
  | .exists => 17
  | .notDirectory => 20
  | .isDirectory => 21
  | .invalid => 22
  | .noRoom => 28
  | .busy => 16
  | .nameTooLong => 36
  | .notEmpty => 39
  | .tooManyLinks => 40

def sentence : OsFault → String
  | .noEntry => "No such file or directory"
  | .listTooLong => "Argument list too long"
  | .notExecutable => "Exec format error"
  | .badDescriptor => "Bad file descriptor"
  | .denied => "Permission denied"
  | .exists => "File exists"
  | .notDirectory => "Not a directory"
  | .isDirectory => "Is a directory"
  | .busy => "Device or resource busy"
  | .invalid => "Invalid argument"
  | .noRoom => "No space left on device"
  | .nameTooLong => "File name too long"
  | .notEmpty => "Directory not empty"
  | .tooManyLinks => "Too many levels of symbolic links"

def kind : OsFault → IoKind
  | .noEntry => .notFound
  | .listTooLong => .argumentListTooLong
  | .notExecutable => .uncategorized
  | .badDescriptor => .uncategorized
  | .denied => .permissionDenied
  | .exists => .alreadyExists
  | .notDirectory => .notADirectory
  | .isDirectory => .isADirectory
  | .busy => .resourceBusy
  | .nameTooLong => .invalidFilename
  | .notEmpty => .directoryNotEmpty
  | .tooManyLinks => .filesystemLoop
  | .invalid => .invalidInput
  | .noRoom => .storageFull

def toIoFault (f : OsFault) : IoFault :=
  ⟨f.kind, f.sentence ++ " (os error " ++ toString f.code ++ ")"⟩

end OsFault

namespace IoFault

/-- A path with a NUL octet cannot be given to the operating system. -/
def nulInPath : IoFault :=
  ⟨.invalidInput, "file name contained an unexpected NUL byte"⟩

/-- An argument with a NUL octet cannot be given to a program. -/
def nulInArgument : IoFault :=
  ⟨.invalidInput, "nul byte found in provided data"⟩

/-- The content of a file is no text. -/
def notText : IoFault :=
  ⟨.invalidData, "stream did not contain valid UTF-8"⟩

end IoFault
end CjsxConversion
