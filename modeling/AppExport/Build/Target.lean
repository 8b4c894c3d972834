/-
What a build is for: the platforms, whether it is a release, and the keys that sign a release.
-/
import AppExport.Json.Typed

namespace AppExport.Build

open Json (Decoder Record Value orNull)

inductive Platform where
  | android
  | ios
  | both
deriving DecidableEq, Repr

inductive Variant where
  | debug
  | release
deriving DecidableEq, Repr

structure Signing where
  keystore : String
  keyAlias : String
  password : String
deriving DecidableEq

structure Target where
  platform : Platform
  variant : Variant
  signing : Option Signing
deriving DecidableEq

namespace Platform

def name : Platform → String
  | android => "android"
  | ios => "ios"
  | both => "both"

def includesAndroid (p : Platform) : Bool := p != ios

def includesIos (p : Platform) : Bool := p != android

/-- The platforms by name. -/
def named : List (String × Platform) := [android, ios, both].map fun p => (p.name, p)

end Platform

namespace Variant

def name : Variant → String
  | debug => "debug"
  | release => "release"

def named : List (String × Variant) := [debug, release].map fun v => (v.name, v)

end Variant

/-- Signing keys as a log may show them, without the password. -/
def Signing.shown (s : Signing) : String :=
  "Signing \x7b keystore: " ++ Text.escaped s.keystore ++ ", alias: " ++ Text.escaped s.keyAlias ++
    ", password: " ++ Text.escaped "<redacted>" ++ " \x7d"

def Target.standard : Target := ⟨.android, .debug, none⟩

/-! ## Writing -/

def Signing.toJson (s : Signing) : Value :=
  .object
    [("keystore", .text s.keystore), ("alias", .text s.keyAlias), ("password", .text s.password)]

def Target.toJson (t : Target) : Value :=
  .object <|
    [("platform", .text t.platform.name), ("buildType", .text t.variant.name)] ++
    (t.signing.map fun s => ("signing", s.toJson)).toList

/-! ## Reading -/

namespace Signing

structure Draft where
  keystore : Option String := none
  keyAlias : Option String := none
  password : Option String := none

def text : Decoder String := fun _ => Json.text "a string"

def record : Record Draft Signing where
  label := "struct Signing"
  fields :=
    [.slot "keystore" [] false (·.keystore) ({ · with keystore := some · }) text,
     .slot "alias" [] false (·.keyAlias) ({ · with keyAlias := some · }) text,
     .slot "password" [] false (·.password) ({ · with password := some · }) text]
  others := none
  positional := true
  start := {}
  finish d := do return ⟨← d.keystore, ← d.keyAlias, ← d.password⟩

end Signing

namespace Target

structure Draft where
  platform : Option Platform := none
  variant : Option Variant := none
  signing : Option (Option Signing) := none

def Draft.finish (d : Draft) : Option Target :=
  some {
    platform := d.platform.getD standard.platform
    variant := d.variant.getD standard.variant
    signing := d.signing.getD standard.signing }

def record : Record Draft Target where
  label := "struct BuildConfig"
  fields :=
    [.slot "platform" [] true (·.platform) ({ · with platform := some · })
       (Json.choice Platform.named),
     .slot "buildType" [] true (·.variant) ({ · with variant := some · })
       (Json.choice Variant.named),
     .slot "signing" [] true (·.signing) ({ · with signing := some · })
       (orNull Signing.record.decoder)]
  others := none
  positional := true
  start := {}
  finish := Draft.finish

def decoder : Decoder Target := record.decoder

end Target
end AppExport.Build
