import AssetBundler.Ini.Document

/-!
References between values. A reference names an option of its own section, or a section and an
option. A doubled dollar sign stands for one.
-/

namespace AssetBundler.Ini

/-- Why a reference cannot be replaced. The section and the option are those of the value that
holds it. -/
inductive ReferenceFault where
  | tooDeep (section_ option raw : String)
  | unknownOption (section_ option raw reference : String)
  | malformed (rest : String)
  | manyColons (rest : String)
  | strayDollar (rest : String)
  | valueless
  deriving DecidableEq, Repr

/-- References are followed so many times in a row. -/
def depthLimit : Nat := 10

def ReferenceFault.message : ReferenceFault → String
  | .tooDeep section_ option raw =>
      "Recursion limit exceeded in value substitution: option " ++ Text.quoted option ++
        " in section " ++ Text.quoted section_ ++
        " contains an interpolation key which cannot be substituted in " ++
        toString depthLimit ++ " steps. Raw value: " ++ Text.quoted raw
  | .unknownOption section_ option raw reference =>
      "Bad value substitution: option " ++ Text.quoted option ++ " in section " ++
        Text.quoted section_ ++ " contains an interpolation key " ++ Text.quoted reference ++
        " which is not a valid option name. Raw value: " ++ Text.quoted raw
  | .malformed rest => "bad interpolation variable reference " ++ Text.quoted rest
  | .manyColons rest => "More than one ':' found: " ++ Text.quoted rest
  | .strayDollar rest => "'$' must be followed by '$' or '\x7b', found: " ++ Text.quoted rest
  | .valueless => "argument of type 'NoneType' is not iterable"

/-- The text up to the closing brace, and the text behind it. The text is not empty. -/
def closeReference? (text : List Char) : Option (List Char × List Char) :=
  match text.dropWhile (· != '\x7d') with
  | [] => none
  | _ :: rest =>
      if (text.takeWhile (· != '\x7d')).isEmpty then none
      else some (text.takeWhile (· != '\x7d'), rest)

theorem closeReference?_length {text name rest : List Char}
    (found : closeReference? text = some (name, rest)) : rest.length < text.length := by
  simp only [closeReference?] at found
  split at found
  · simp at found
  · rename_i shape
    split at found
    · simp at found
    · simp only [Option.some.injEq, Prod.mk.injEq] at found
      have shorter := (List.dropWhile_sublist (· != '\x7d') (l := text)).length_le
      rw [shape, List.length_cons] at shorter
      rw [← found.2]
      omega

/-- The section and the option that a reference from a section names. -/
def resolveReference (section_ : String) (name rest : List Char) :
    Except ReferenceFault (String × String) :=
  match Text.splitAt ':' name with
  | [option] => .ok (section_, Text.lower (String.ofList option))
  | [other, option] => .ok (String.ofList other, Text.lower (String.ofList option))
  | _ => .error (.manyColons (String.ofList rest))

/-- The text of a value from some place on. What a reference names is told as a text, in which the
references are followed in turn. -/
def substituteText (document : Document)
    (follow : String → String → String → Except ReferenceFault (List Char))
    (section_ option raw : String) (text : List Char) : Except ReferenceFault (List Char) :=
  match text with
  | [] => .ok []
  | c :: rest =>
      if c ≠ '$' then (substituteText document follow section_ option raw rest).map (c :: ·)
      else
        match rest with
        | '$' :: behind =>
            (substituteText document follow section_ option raw behind).map ('$' :: ·)
        | '\x7b' :: inner =>
            match _found : closeReference? inner with
            | none => .error (.malformed (String.ofList text))
            | some (name, behind) => do
                let (otherSection, otherOption) ← resolveReference section_ name behind
                let value ←
                  match document.raw? otherSection otherOption with
                  | none => .error (.unknownOption section_ option raw (String.ofList name))
                  | some none => .error .valueless
                  | some (some value) => .ok value
                let image ←
                  if value.toList.contains '$' then follow otherSection otherOption value
                  else .ok value.toList
                let images ← substituteText document follow section_ option raw behind
                return image ++ images
        | _ => .error (.strayDollar (String.ofList text))
  termination_by text.length
  decreasing_by
    · simp
    · simp only [List.length_cons]
      omega
    · have := closeReference?_length _found
      simp only [List.length_cons]
      omega

/-- The text of a value. The value that a reference names is replaced in the same way, one step
deeper. -/
def substitute (document : Document) (depth : Nat) (section_ option raw : String) :
    Except ReferenceFault (List Char) :=
  match depth with
  | 0 => .error (.tooDeep section_ option raw)
  | deeper + 1 =>
      substituteText document (substitute document deeper) section_ option raw raw.toList

/-- The value of an option with its references replaced. -/
def Document.value (document : Document) (section_ option : String) :
    Except ReferenceFault (Option String) :=
  match document.raw? section_ option with
  | none => .ok none
  | some none => .ok none
  | some (some raw) => do
      let text ← substitute document depthLimit section_ option raw
      return some (String.ofList text)

end AssetBundler.Ini
