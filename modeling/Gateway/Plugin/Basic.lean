import Gateway.Text.Quoted

/-! Plugins: a behaviour with the data of its registration. -/
namespace Gateway

structure Plugin (α : Type) where
  name : String
  behaviour : α
  description : String := ""
  enabled : Bool := true
  secured : Bool := false
  /-- The configured path, in place of the plugin's own. -/
  uri : Option String := none

namespace Plugin

def boolText (b : Bool) : String := if b then "true" else "false"

/-- The registration in one line. -/
def summary {α : Type} (p : Plugin α) : String :=
  let uri := match p.uri with
    | some u => "Some(" ++ Text.quoted u ++ ")"
    | none => "None"
  "PluginRecord \x7b name: " ++ Text.quoted p.name ++ ", enabled: " ++ boolText p.enabled ++
    ", secured: " ++ boolText p.secured ++ ", uri: " ++ uri ++ " \x7d"

end Plugin
end Gateway
