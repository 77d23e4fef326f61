import GuestVM.Config.Toml
import GuestVM.Document

/-! # Configurations as documents

A configuration is given by a TOML text, or by settings that build on the default one after another;
it is written setting by setting. -/
set_option autoImplicit false

namespace GuestVM.Config

/-- Builds on `c` with one setting: its name and its number. -/
def withSetting? (c : Config) (d : Document) : Option Config :=
  match d.items with
  | [.str name, n] => do return c.set (← Setting.ofName? name) (← n.size?).toUInt64
  | _ => none

/-- A configuration; nothing where a text or setting is faulty. -/
def ofDocument? (d : Document) : Option Config :=
  match (d.field "toml").text? with
  | some text => ofToml? text
  | none => (d.field "set").items.foldlM withSetting? {}

def document (c : Config) : Document :=
  .ofMembers (("default", .bool (c = {}))
    :: Setting.all.map fun s => (s.name, .ofNat (c.get s).toNat))

end GuestVM.Config
