import Rjcore.Service.Network
import Rjcore.Text.Words

/-!
# The fastest link mode

`getNetcardMaxSpeed` searches the list of link modes for three keywords as they stand. A
keyword has no white space, so it is found inside of one word; and no word of the list but the
keyword itself contains it, since no speed ends in the digits of another one that is searched.
-/

namespace Rjcore

open Interaction CText RjcoreService

variable {text : Bytes} {speed : Nat}

end Rjcore
