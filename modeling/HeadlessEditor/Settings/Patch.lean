import HeadlessEditor.Settings.Decode

/-!
Patches. A patch is an object whose members replace settings; within a section the other settings
stay, and `null` stands for the default. A patch is applied as a whole or not at all, and answers
with the settings that it changed.
-/

namespace HeadlessEditor

namespace Json

mutual

/-- An object after a patch. What is no object on either side is replaced. -/
def merge (target : Json) : Json → Json
  | object patch =>
    match target with
    | object members => object (mergeMembers members patch)
    | _ => object patch
  | patch => patch

def mergeMembers (members : List (String × Json)) : List (String × Json) → List (String × Json)
  | [] => members
  | (key, value) :: rest =>
    let next :=
      match value with
      | null => members.filter (·.1 ≠ key)
      | value =>
        match members.lookup key with
        | some old =>
          if old.isObject && value.isObject then insertMember key (merge old value) members
          else insertMember key value members
        | none => insertMember key value members
    mergeMembers next rest

end

mutual

/-- The dotted keys, under `path`, of the leaves in which two values differ. -/
def changedKeys (path : String) (before : Json) : Json → List String
  | object members =>
    match before with
    | object old => changedMembers path old members
    | before => if same before (object members) then [] else [path]
  | after => if same before after then [] else [path]

def changedMembers (path : String) (old : List (String × Json)) :
    List (String × Json) → List String
  | [] => []
  | (key, value) :: rest =>
    changedKeys (if path.isEmpty then key else path ++ "." ++ key)
        ((old.lookup key).getD null) value
      ++ changedMembers path old rest

end

end Json

namespace Settings

/-- Applies a patch. The second result lists the dotted keys whose value changed, in order. -/
def patch (settings : Settings) (change : Json) : Except SettingsError (Settings × List String) :=
  if change.isObject then do
    let next ← read (settings.toJson.merge change)
    return (next, Json.changedKeys "" settings.toJson next.toJson)
  else .error .notAnObject

end Settings

end HeadlessEditor
