/-!
# Faults of the host

What the operating system answers when a file or directory operation fails: its description and,
mostly, its error number.
-/

namespace Diaporama

structure OsFault where
  description : String
  code : Option Nat
  deriving DecidableEq, Repr

namespace OsFault

def notFound : OsFault := ⟨"No such file or directory", some 2⟩

def permissionDenied : OsFault := ⟨"Permission denied", some 13⟩

def alreadyExists : OsFault := ⟨"File exists", some 17⟩

def notDirectory : OsFault := ⟨"Not a directory", some 20⟩

def isDirectory : OsFault := ⟨"Is a directory", some 21⟩

def nameTooLong : OsFault := ⟨"File name too long", some 36⟩

def notPermitted : OsFault := ⟨"Operation not permitted", some 1⟩

def argumentsTooLong : OsFault := ⟨"Argument list too long", some 7⟩

def formatError : OsFault := ⟨"Exec format error", some 8⟩

def badDescriptor : OsFault := ⟨"Bad file descriptor", some 9⟩

def noDevice : OsFault := ⟨"No such device or address", some 6⟩

def invalidArgument : OsFault := ⟨"Invalid argument", some 22⟩

def noSpace : OsFault := ⟨"No space left on device", some 28⟩

def brokenPipe : OsFault := ⟨"Broken pipe", some 32⟩

def notEmpty : OsFault := ⟨"Directory not empty", some 39⟩

def tooManyLinks : OsFault := ⟨"Too many levels of symbolic links", some 40⟩

/-- A path with a zero byte names nothing on any host. -/
def zeroByte : OsFault := ⟨"file name contained an unexpected NUL byte", none⟩

def zeroArgument : OsFault := ⟨"nul byte found in provided data", none⟩

def message (f : OsFault) : String :=
  match f.code with
  | some code => f.description ++ " (os error " ++ toString code ++ ")"
  | none => f.description

end OsFault

end Diaporama
