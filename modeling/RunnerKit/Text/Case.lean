/-!
This module contains the lower case of ASCII text.
-/

namespace RunnerKit

def asciiLower (s : String) : String :=
  String.ofList (s.toList.map Char.toLower)

end RunnerKit
