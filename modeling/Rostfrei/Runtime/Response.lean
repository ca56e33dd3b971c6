import Rostfrei.Messaging.CommandResponse
import Rostfrei.Runtime.Command

/-!
# Identities of responses

The message ids of the responses to a command. A technical response has an id of its own for each
failure, which is neither that of the command's business response nor that of another failure.
-/

namespace Rostfrei.Runtime

open Lib Messaging

section

variable [Crates]

/-- `command_response_message_id`. -/
def commandResponseMessageId (commandMessageId : MessageId) : Except ContractError MessageId :=
  CheckedString.new (framedFingerprint
    [utf8 "rostfrei:command-response-message:v1", utf8 commandMessageId.value]).toHex

/-- The text of a failure in the id of its response. -/
def failureSource : ExecutionFailure → String
  | .store kind => "store." ++ kind.name
  | .codec kind => "codec." ++ kind.name
  | .processor => "processor.invalid_configuration"

/-- `command_technical_response_message_id`. -/
def commandTechnicalResponseMessageId (commandMessageId : MessageId) (failure : ExecutionFailure) :
    Except ContractError MessageId :=
  CheckedString.new (framedFingerprint
    [utf8 "rostfrei:command-technical-response-message:v1", utf8 commandMessageId.value,
      utf8 (failureSource failure)]).toHex

end

end Rostfrei.Runtime
