namespace Switchboard

structure Frame where
  function : String
  file : Option String
  line : Option Nat
  deriving DecidableEq, Repr

namespace Frame

def named (function : String) : Frame := ⟨function, none, none⟩

def separator : Frame := named "------End remote and begin local stacktrace------"

/-- A separator may carry a line, but no file. -/
def isSeparator (f : Frame) : Bool := f.function = separator.function && f.file.isNone

def display (f : Frame) : String :=
  match f.file, f.line with
  | some file, some line => f.function ++ " (" ++ file ++ ":" ++ toString line ++ ")"
  | some file, none => f.function ++ " (" ++ file ++ ")"
  | none, _ => f.function

end Frame

inductive RemoteError where
  | mk (kind message : String) (frames : List Frame) (cause : Option RemoteError)
  deriving Repr

namespace RemoteError

def kind : RemoteError → String
  | mk kind _ _ _ => kind

def message : RemoteError → String
  | mk _ message _ _ => message

def frames : RemoteError → List Frame
  | mk _ _ frames _ => frames

def cause : RemoteError → Option RemoteError
  | mk _ _ _ cause => cause

def of (kind message : String) : RemoteError := mk kind message [] none

def addFrames (e : RemoteError) (frames : List Frame) : RemoteError :=
  mk e.kind e.message (e.frames ++ frames) e.cause

def addFrame (e : RemoteError) (f : Frame) : RemoteError := e.addFrames [f]

def causedBy (e cause : RemoteError) : RemoteError := mk e.kind e.message e.frames (some cause)

def withMessage (e : RemoteError) (message : String) : RemoteError :=
  mk e.kind message e.frames e.cause

def display (e : RemoteError) : String := e.kind ++ ": " ++ e.message

def stitch (e : RemoteError) (localFrames : List Frame) : RemoteError :=
  e.addFrames (Frame.separator :: localFrames)

def isStitched (e : RemoteError) : Bool := e.frames.any Frame.isSeparator

def remoteFrames (e : RemoteError) : List Frame := e.frames.takeWhile (!·.isSeparator)

def localFrames (e : RemoteError) : List Frame := (e.frames.dropWhile (!·.isSeparator)).drop 1

def causes : RemoteError → List RemoteError
  | mk _ _ _ none => []
  | mk _ _ _ (some c) => c :: c.causes

def paragraph (e : RemoteError) : String :=
  e.display ++ "\n" ++ String.join (e.frames.map fun f => "    at " ++ f.display ++ "\n")

def trace (e : RemoteError) : String :=
  e.paragraph ++ String.join (e.causes.map fun c => "Caused by: " ++ c.paragraph)

end RemoteError

end Switchboard
