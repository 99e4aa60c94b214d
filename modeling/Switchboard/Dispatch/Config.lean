import Switchboard.Settings
import Switchboard.Duration

namespace Switchboard

structure RetryPolicy where
  backoff : Duration
  maxAttempts : Option Nat
  deriving DecidableEq, Repr

namespace RetryPolicy

def standard : RetryPolicy := ⟨.ofMillis 100, none⟩

/-- Attempts count from one; without a ceiling another one may always follow. -/
def allowsAnother (r : RetryPolicy) (attempt : Nat) : Bool :=
  match r.maxAttempts with
  | none => true
  | some most => attempt < most

end RetryPolicy

structure ClientConfig where
  slice : String
  defaultTimeout : Duration
  retry : RetryPolicy
  deriving DecidableEq, Repr

namespace ClientConfig

def standard : ClientConfig := ⟨"default", .ofMillis 60000, .standard⟩

def ofSettings (scope : String) (s : Settings) : ClientConfig where
  slice := (s.text? (scope ++ "_SLICE_NAME")).getD standard.slice
  defaultTimeout :=
    ((s.numberAt? 64 (scope ++ "_DEFAULT_TIMEOUT_MS")).map .ofMillis).getD standard.defaultTimeout
  retry :=
    { backoff :=
        ((s.numberAt? 64 (scope ++ "_RETRY_BACKOFF_MS")).map .ofMillis).getD standard.retry.backoff
      maxAttempts := s.numberAt? 32 (scope ++ "_MAX_RETRY_ATTEMPTS") }

inductive Invalid where
  | emptySlice
  | zeroTimeout
  | zeroAttempts
  deriving DecidableEq, Repr

def Invalid.message : Invalid → String
  | emptySlice => "Slice name must not be empty"
  | zeroTimeout => "Default timeout must be greater than zero"
  | zeroAttempts => "Max retry attempts must be at least 1 when set"

def invalid? (c : ClientConfig) : Option Invalid :=
  if c.slice.isEmpty then some .emptySlice
  else if c.defaultTimeout.isZero then some .zeroTimeout
  else if c.retry.maxAttempts = some 0 then some .zeroAttempts
  else none

end ClientConfig

end Switchboard
