import RunnerKit.Template.Store
/-!
This module contains the listings of templates: as rows of a table and as JSON.
-/

namespace RunnerKit

def padded (width : Nat) (s : String) : String :=
  s ++ String.ofList (List.replicate (width - s.length) ' ')

/--
The rows of a table. A column is as wide as the longest of its texts in bytes, which is wide enough.
-/
def tableRows (infos : List TemplateInfo) : List String :=
  let widest (f : TemplateInfo → String) :=
    (infos.map fun info => (f info).utf8ByteSize).foldl max 0
  let idWidth := widest TemplateInfo.id
  let styleWidth := widest TemplateInfo.pathStyle
  infos.map fun info =>
    "  " ++ padded idWidth info.id ++ "  " ++ padded styleWidth info.pathStyle ++ "  " ++
      info.description

namespace Json

def lowerHexDigit (n : Nat) : Char := if n < 10 then Char.ofNat (48 + n) else Char.ofNat (87 + n)

def escaped : List Char → List Char
  | [] => []
  | c :: cs =>
    let head := match c with
      | '"' => ['\\', '"']
      | '\\' => ['\\', '\\']
      | '\x08' => ['\\', 'b']
      | '\x0c' => ['\\', 'f']
      | '\n' => ['\\', 'n']
      | '\r' => ['\\', 'r']
      | '\t' => ['\\', 't']
      | c =>
        if c < ' ' then
          ['\\', 'u', '0', '0', lowerHexDigit (c.toNat / 16 % 16), lowerHexDigit (c.toNat % 16)]
        else [c]
    head ++ escaped cs

def quoted (s : String) : String := "\"" ++ String.ofList (escaped s.toList) ++ "\""

end Json

def TemplateInfo.json (info : TemplateInfo) : String :=
  let members := [("id", Json.quoted info.id), ("description", Json.quoted info.description),
    ("path_style", Json.quoted info.pathStyle), ("files", toString info.files)]
  let lines := members.map fun (key, value) => "    " ++ Json.quoted key ++ ": " ++ value
  "  \x7b\n" ++ ",\n".intercalate lines ++ "\n  \x7d"

def jsonListing (infos : List TemplateInfo) : String :=
  if infos.isEmpty then "[]" else "[\n" ++ ",\n".intercalate (infos.map TemplateInfo.json) ++ "\n]"

end RunnerKit
