import Correlator.Sequence
import Correlator.Transport.Failure
import Correlator.Options.Settings

/-!
Contract: the reasons for which an operation on a client fails.

Owns: the stable code of each reason, its message, its classification as a protocol violation, and
the request number it is about.

Does not own: when each arises (`Correlator.Client.Operation`, `Correlator.Client.Builder`,
`Correlator.Options.Basic`, `Correlator.Response.Cell`).
-/

set_option autoImplicit false

namespace Correlator

/-- Why a document with settings was not accepted. -/
inductive DocumentFault where
  /-- It does not follow the grammar of the notation, or defines a key twice. -/
  | malformed
  /-- The thing at the given line and column does not fit the settings. -/
  | mismatch (line column : Nat) (mismatch : Options.Mismatch)
deriving Repr

/-- What is said about a document: where, and what does not fit. -/
def DocumentFault.place : DocumentFault → String
  | .malformed => "TOML parse error"
  | .mismatch line column _ =>
    "TOML parse error at line " ++ toString line ++ ", column " ++ toString column

/-- Why an operation on a client failed. -/
inductive ClientError where
  /-- The transport failed to send the request. -/
  | transmit (service : String) (source : Transport.Failure)
  /-- The number of a response belongs to no pending request. -/
  | unmatchedResponse (service : String) (sequence : Sequence)
  /-- The response to this request has already been stored. -/
  | doubleResolution (sequence : Sequence)
  /-- The client has been disposed of. -/
  | invalidHandle (service : String)
  /-- The transport handed out the number of a request that is still pending. -/
  | duplicateSequence (service : String) (sequence : Sequence)
  /-- As many requests are pending as the client allows. -/
  | capacityExceeded (service : String) (limit : Nat)
  /-- The client was given an unusable option or lacks a part. -/
  | invalidConfig (detail : String)
  /-- Written options could not be read. -/
  | configParse (fault : DocumentFault)
deriving Repr

namespace ClientError

/-- The stable code of a reason. -/
def code : ClientError → String
  | .transmit .. => "client.transmit"
  | .unmatchedResponse .. => "client.unmatched_response"
  | .doubleResolution .. => "client.double_resolution"
  | .invalidHandle .. => "client.invalid_handle"
  | .duplicateSequence .. => "client.duplicate_sequence"
  | .capacityExceeded .. => "client.capacity_exceeded"
  | .invalidConfig .. => "client.invalid_config"
  | .configParse .. => "client.config_parse"

def message : ClientError → String
  | .transmit service source =>
    "failed to transmit request for service `" ++ service ++ "`: " ++ source.text
  | .unmatchedResponse service sequence =>
    "no pending request for service `" ++ service ++ "` with sequence number " ++ sequence.text
  | .doubleResolution sequence =>
    "response future for sequence number " ++ sequence.text ++ " is already resolved"
  | .invalidHandle service => "client for service `" ++ service ++ "` has been disposed"
  | .duplicateSequence service sequence =>
    "transport reused live sequence number " ++ sequence.text ++ " for service `" ++ service ++ "`"
  | .capacityExceeded service limit =>
    "service `" ++ service ++ "` already has " ++ toString limit ++ " pending requests"
  | .invalidConfig detail => "invalid client configuration: " ++ detail
  | .configParse fault => "failed to parse client options: " ++ fault.place

/-- Whether the reason is a flaw in the correlation of responses with requests, which no retry
mends. -/
def isProtocolViolation : ClientError → Bool
  | .unmatchedResponse .. | .doubleResolution .. | .duplicateSequence .. => true
  | _ => false

/-- The request number that the reason is about. -/
def sequence? : ClientError → Option Sequence
  | .unmatchedResponse _ sequence | .doubleResolution sequence | .duplicateSequence _ sequence =>
    some sequence
  | _ => none

/-- The failure below, where there is one. -/
def source? : ClientError → Option Transport.Failure
  | .transmit _ source => some source
  | _ => none

end ClientError

end Correlator
