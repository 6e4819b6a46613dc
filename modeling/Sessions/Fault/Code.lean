import Sessions.Text

/-!
# Sessions.Fault.Code

Numbers of the kinds of failure, in groups of a hundred: configuration, arguments, validity of a
session, authorization, store, the rest. A number outside the list is still a code; it describes
itself as unknown.
-/

namespace Sessions

structure Code where
  value : Int
deriving DecidableEq, Repr

namespace Code

def success : Code := ⟨0⟩
def invalidConfig : Code := ⟨1⟩
def invalidInterval : Code := ⟨2⟩
def invalidLogging : Code := ⟨3⟩
def invalidArgument : Code := ⟨100⟩
def invalidHost : Code := ⟨101⟩
def missingHost : Code := ⟨102⟩
def invalidId : Code := ⟨103⟩
def invalidKey : Code := ⟨104⟩
def invalidSession : Code := ⟨200⟩
def unknownSession : Code := ⟨201⟩
def expiredSession : Code := ⟨202⟩
def stoppedSession : Code := ⟨203⟩
def replacedSession : Code := ⟨204⟩
def hostUnauthorized : Code := ⟨400⟩
def storeError : Code := ⟨500⟩
def storeFull : Code := ⟨501⟩
def duplicateSession : Code := ⟨502⟩
def persistenceFailed : Code := ⟨503⟩
def unknownError : Code := ⟨800⟩

def descriptions : List (Code × String) :=
  [(success, "Success"),
   (invalidConfig, "Invalid configuration"),
   (invalidInterval, "Invalid session validation interval"),
   (invalidLogging, "Invalid logging configuration"),
   (invalidArgument, "Invalid argument"),
   (invalidHost, "Invalid host address"),
   (missingHost, "Missing host address"),
   (invalidId, "Invalid session ID"),
   (invalidKey, "Invalid attribute key"),
   (invalidSession, "Invalid session"),
   (unknownSession, "Unknown session"),
   (expiredSession, "Session expired"),
   (stoppedSession, "Session stopped"),
   (replacedSession, "Session replaced"),
   (hostUnauthorized, "Host unauthorized"),
   (storeError, "Session store error"),
   (storeFull, "Session store full"),
   (duplicateSession, "Duplicate session ID"),
   (persistenceFailed, "Session persistence failed"),
   (unknownError, "Unknown error")]

def description (c : Code) : Text :=
  match descriptions.find? (·.1 == c) with
  | some (_, s) => s
  | none => "Unknown error code"

def family : Text := "sessionvault"

def isFailure (c : Code) : Bool := c != success

end Code
end Sessions
