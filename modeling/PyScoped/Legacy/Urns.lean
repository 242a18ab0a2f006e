import PyScoped.Foundation.Numerals
import PyScoped.Legacy.Registry

/-! URNs of version 1 as text: how one is written, and what of a text is read as one. -/

namespace PyScoped.Legacy.Registry
open Foundation

def valueError : IntError → RegistryError
  | .invalidLiteral => .invalidUrn "invalid literal for int() with base 10"
  | .tooManyDigits => .invalidUrn "Exceeds the limit for integer string conversion"

namespace URN

variable (numerals : Numerals)

/-- `__str__`, which may refuse a version with too many digits. -/
def str (urn : URN) : Except RegistryError String :=
  match numerals.str urn.version with
  | .error error => .error (valueError error)
  | .ok version => .ok ("scoped:" ++ urn.kind ++ ":" ++ urn.entryNamespace ++ ":" ++ urn.name ++ ":" ++ version)

/-- `URN.parse`. The name takes every part between the namespace and the version. -/
def parse (raw : String) : Except RegistryError URN :=
  match raw.toList.splitOn ':' with
  | first :: kind :: entryNamespace :: rest =>
    if rest.length < 2 || String.ofList first ≠ "scoped" then .error (.invalidUrn ("Invalid URN: " ++ raw))
    else match numerals.int (rest.getLastD []) with
      | .error error => .error (valueError error)
      | .ok version =>
        make (String.ofList kind) (String.ofList entryNamespace) (String.ofList ([':'].intercalate rest.dropLast)) version
  | _ => .error (.invalidUrn ("Invalid URN: " ++ raw))

end URN
end PyScoped.Legacy.Registry
