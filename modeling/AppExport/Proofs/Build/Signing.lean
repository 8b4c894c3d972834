/-
What a build shows of the keys that sign it. All that is written and sent depends on the platform, the
variant and, for a release, on where the keys are kept and how they are called, so a password changes
nothing, and in a debug build none of the keys does.
-/
import AppExport.Build.Simulation

namespace AppExport.Build

open Component (Forest)

/-! ## What targets show -/

/-- All of some keys but their password. -/
def Signing.named (s : Signing) : String × String := (s.keystore, s.keyAlias)

/-- The keys that the documents of a target name; a debug build names none. -/
def Target.keysNamed (t : Target) : Option (String × String) :=
  match t.variant with
  | .debug => none
  | .release => t.signing.map Signing.named

/-- Whether two targets look the same in what a build writes and sends. -/
structure Target.LooksLike (t t' : Target) : Prop where
  platform : t.platform = t'.platform
  variant : t.variant = t'.variant
  keysNamed : t.keysNamed = t'.keysNamed

/-- Whether two targets are the same but for the password of their keys. -/
structure Target.SameButPassword (t t' : Target) : Prop where
  platform : t.platform = t'.platform
  variant : t.variant = t'.variant
  signing : t.signing.map Signing.named = t'.signing.map Signing.named

/-- Whether two targets are the same but for their keys, if there are any. -/
structure Target.SameButSigning (t t' : Target) : Prop where
  platform : t.platform = t'.platform
  variant : t.variant = t'.variant

namespace Target

variable {t t' : Target}

theorem SameButPassword.looksLike (h : t.SameButPassword t') : t.LooksLike t' where
  platform := h.platform
  variant := h.variant
  keysNamed := by rw [keysNamed, keysNamed, h.variant, h.signing]

theorem SameButSigning.looksLike (h : t.SameButSigning t') (hdebug : t.variant = .debug) :
    t.LooksLike t' where
  platform := h.platform
  variant := h.variant
  keysNamed := by rw [keysNamed, keysNamed, ← h.variant, hdebug]

end Target

/-! ## Documents -/

section

variable {t t' : Target}

/-- What is made of names only is the same for keys with the same names. -/
theorem map_congr_of_named {f : Signing → String} {g : String × String → String}
    (hf : ∀ s, f s = g s.named) {signing signing' : Option Signing}
    (h : signing.map Signing.named = signing'.map Signing.named) : signing.map f = signing'.map f := by
  obtain rfl : f = g ∘ Signing.named := funext hf
  rw [← Option.map_map, ← Option.map_map, h]

theorem map_signingLine_congr {signing signing' : Option Signing}
    (h : signing.map Signing.named = signing'.map Signing.named) :
    signing.map Instructions.signingLine = signing'.map Instructions.signingLine :=
  map_congr_of_named (g := fun names =>
    "- Sign with keystore `" ++ names.1 ++ "` (alias `" ++ names.2 ++ "`)") (fun _ => rfl) h

theorem map_shown_congr {signing signing' : Option Signing}
    (h : signing.map Signing.named = signing'.map Signing.named) :
    signing.map Signing.shown = signing'.map Signing.shown :=
  map_congr_of_named (g := fun names =>
    "Signing \x7b keystore: " ++ Text.escaped names.1 ++ ", alias: " ++ Text.escaped names.2 ++
      ", password: " ++ Text.escaped "<redacted>" ++ " \x7d") (fun _ => rfl) h

theorem release_congr (h : t.LooksLike t') : Instructions.release t = Instructions.release t' := by
  have hkeys := h.keysNamed
  rw [Target.keysNamed, Target.keysNamed, ← h.variant] at hkeys
  rw [Instructions.release, Instructions.release, ← h.variant]
  cases hvariant : t.variant with
  | debug => rfl
  | release =>
    rw [hvariant] at hkeys
    have hlines : t.signing.map Instructions.signingLine = t'.signing.map Instructions.signingLine :=
      map_signingLine_congr hkeys
    simp only [hlines]

theorem instructions_congr (h : t.LooksLike t') (config : Config) :
    instructions config t = instructions config t' := by
  have hdata : Instructions.data config t = Instructions.data config t' := by
    rw [Instructions.data, Instructions.data, h.platform, h.variant, release_congr h]
  rw [instructions, instructions, hdata]

theorem product_congr (h : t.LooksLike t') (forest : Forest) (config : Config) :
    product forest config t = product forest config t' := by
  rw [product, product, instructions_congr h, h.platform]

/-! ## Runs -/

theorem run_congr (h : t.LooksLike t') (pacing : Pacing) (draws : Stage → Nat) (patience : Patience)
    (forest : Forest) (config : Config) :
    run pacing draws patience forest config t = run pacing draws patience forest config t' := by
  rw [run, run, product_congr h]

/-- What an event says: its stage, how much of the build is done with it and the label for a
platform. -/
def Event.said (platform : Platform) : Event → Option (String × Nat × String)
  | progress stage => some (stage.name, stage.tenths, stage.label platform)
  | completed => none

/-- All that can be seen of a build: what the events say and when they are sent, those that are heard,
how long it takes and how it ends. -/
structure Observation where
  sent : List (Nat × Option (String × Nat × String))
  heard : List (Option (String × Nat × String))
  clock : Nat
  outcome : Except Failure Product

def observed (pacing : Pacing) (draws : Stage → Nat) (patience : Patience) (forest : Forest)
    (config : Config) (target : Target) : Observation :=
  let result := run pacing draws patience forest config target
  { sent := result.progress.sent.map fun s => (s.time, s.event.said target.platform)
    heard := result.progress.heard.map (Event.said target.platform)
    clock := result.progress.clock
    outcome := result.outcome }

theorem observed_congr (h : t.LooksLike t') (pacing : Pacing) (draws : Stage → Nat)
    (patience : Patience) (forest : Forest) (config : Config) :
    observed pacing draws patience forest config t =
      observed pacing draws patience forest config t' := by
  simp only [observed, run_congr h, h.platform]

end

/-! ## Passwords -/

/-- Whether two targets have the same instructions in every project and can be told apart by no
build. -/
def Target.SameOutput (t t' : Target) : Prop :=
  (∀ config, instructions config t = instructions config t') ∧
    ∀ pacing draws patience forest config,
      observed pacing draws patience forest config t = observed pacing draws patience forest config t'

theorem Target.LooksLike.sameOutput {t t' : Target} (h : t.LooksLike t') : t.SameOutput t' :=
  ⟨instructions_congr h, observed_congr h⟩

/-- A password is not seen: whatever it is, the instructions are the same, builds send, say and make
the same, and the keys are shown the same. Of a debug build that is true of all that its keys are,
and of whether it has any. -/
theorem password_unseen (t t' : Target) :
    (t.SameButPassword t' →
      t.SameOutput t' ∧ t.signing.map Signing.shown = t'.signing.map Signing.shown) ∧
    (t.SameButSigning t' → t.variant = .debug → t.SameOutput t') :=
  ⟨fun h => ⟨h.looksLike.sameOutput, map_shown_congr h.signing⟩,
    fun h hdebug => (h.looksLike hdebug).sameOutput⟩

/-- A release whose password has been changed, and a debug build whose keys have been taken away. -/
theorem password_unseen_changed :
    let keys : Signing := ⟨"release.jks", "upload", "hunter2"⟩
    let t : Target := ⟨.both, .release, some keys⟩
    let t' : Target := ⟨.both, .release, some { keys with password := "" }⟩
    let debug : Target := ⟨.ios, .debug, some keys⟩
    let bare : Target := ⟨.ios, .debug, none⟩
    (t.SameButPassword t' ∧ t.SameOutput t' ∧
      t.signing.map Signing.shown = t'.signing.map Signing.shown) ∧
    debug.SameButSigning bare ∧ debug.variant = .debug ∧ debug.SameOutput bare := by
  intro keys t t' debug bare
  have hpassword : t.SameButPassword t' := ⟨rfl, rfl, rfl⟩
  have hsigning : debug.SameButSigning bare := ⟨rfl, rfl⟩
  exact ⟨⟨hpassword, (password_unseen t t').1 hpassword⟩, hsigning, rfl,
    (password_unseen debug bare).2 hsigning rfl⟩

end AppExport.Build
