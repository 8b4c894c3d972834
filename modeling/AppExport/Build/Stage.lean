/-
The stages that every build goes through, in order.
-/
import AppExport.Build.Target

namespace AppExport.Build

inductive Stage where
  | environmentInit
  | codeGeneration
  | dependencyInstall
  | bundleCompile
  | nativeBuild
  | signing
  | assetOptimization
  | finalize
deriving DecidableEq, Repr

namespace Stage

def all : List Stage :=
  [environmentInit, codeGeneration, dependencyInstall, bundleCompile, nativeBuild, signing,
   assetOptimization, finalize]

def name : Stage → String
  | environmentInit => "EnvironmentInit"
  | codeGeneration => "CodeGeneration"
  | dependencyInstall => "DependencyInstall"
  | bundleCompile => "BundleCompile"
  | nativeBuild => "NativeBuild"
  | signing => "Signing"
  | assetOptimization => "AssetOptimization"
  | finalize => "Finalize"

/-- The position in `all`. -/
def index : Stage → Nat
  | environmentInit => 0
  | codeGeneration => 1
  | dependencyInstall => 2
  | bundleCompile => 3
  | nativeBuild => 4
  | signing => 5
  | assetOptimization => 6
  | finalize => 7

/-- How much of a build is done with the stage, in tenths of a percent. -/
def tenths (s : Stage) : Nat := 1000 * (s.index + 1) / all.length

def label (platform : Platform) : Stage → String
  | environmentInit => "Initializing build environment..."
  | codeGeneration => "Generating React Native code..."
  | dependencyInstall => "Installing dependencies..."
  | bundleCompile => "Compiling JavaScript bundle..."
  | nativeBuild =>
    match platform with
    | .android => "Building Android project..."
    | .ios => "Building iOS project..."
    | .both => "Building Android and iOS projects..."
  | signing =>
    match platform with
    | .android => "Signing APK..."
    | .ios => "Signing IPA..."
    | .both => "Signing APK and IPA..."
  | assetOptimization => "Optimizing assets..."
  | finalize => "Finalizing build..."

end Stage
end AppExport.Build
