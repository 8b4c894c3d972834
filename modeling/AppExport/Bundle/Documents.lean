/-
The documents of a generated app that depend on the project: its entry module, its package
descriptor, its manifest, its readme and its theme constants.
-/
import AppExport.Config
import AppExport.Markup.Imports
import AppExport.Markup.Lowering
import AppExport.Template.Builtin

namespace AppExport.Bundle

open Component (Forest)
open Json (Value)
open Markup (imports importStatement? lower print)
open Template (Engine TemplateError)

/-- How deep the components stand in the entry module. -/
def treeLevel : Nat := 3

/-- The module that an app starts with: imports, the components under one root view, and the style
of that view. -/
def entryModule (forest : Forest) (config : Config) : String :=
  let body := print (lower forest) treeLevel
  "\n".intercalate <|
    ["import React from 'react';",
     "import \x7b StatusBar \x7d from 'expo-status-bar';",
     "import \x7b StyleSheet, View \x7d from 'react-native';"] ++
    (importStatement? (imports forest)).toList ++
    ["",
     "export default function App() \x7b",
     "  return (",
     "    <View style=\x7bstyles.container\x7d>",
     "      <StatusBar style=\"auto\" />"] ++
    (if body.isEmpty then [] else [body]) ++
    ["    </View>",
     "  );",
     "\x7d",
     "",
     "const styles = StyleSheet.create(\x7b",
     "  container: \x7b",
     "    flex: 1,",
     "    backgroundColor: " ++ Text.quote config.theme.backgroundColor ++ ",",
     "  \x7d,",
     "\x7d);",
     ""]

def packageJson (config : Config) : Value :=
  .object
    [("name", .text config.token),
     ("version", .text config.version),
     ("description", .text config.description),
     ("main", .text "node_modules/expo/AppEntry.js"),
     ("scripts", .object
       [("start", .text "expo start"),
        ("android", .text "expo start --android"),
        ("ios", .text "expo start --ios"),
        ("web", .text "expo start --web"),
        ("build", .text "expo build:android"),
        ("build:ios", .text "expo build:ios")]),
     ("dependencies", .object
       [("expo", .text "~49.0.0"),
        ("expo-status-bar", .text "~1.6.0"),
        ("react", .text "18.2.0"),
        ("react-native", .text "0.72.6"),
        ("@expo/vector-icons", .text "^13.0.0")]),
     ("devDependencies", .object
       [("@babel/core", .text "^7.20.0"),
        ("@types/react", .text "~18.2.14"),
        ("typescript", .text "^5.1.3")]),
     ("keywords", .list [.text "expo", .text "react-native", .text "mobile-app"]),
     ("license", .text "MIT")]

def manifestJson (config : Config) : Value :=
  let background := Value.text config.theme.backgroundColor
  .object
    [("expo", .object
      [("name", .text config.name),
       ("slug", .text config.token),
       ("version", .text config.version),
       ("orientation", .text config.orientation.name),
       ("icon", .text (config.icon.getD "./assets/icon.png")),
       ("userInterfaceStyle", .text "light"),
       ("splash", .object
         [("image", .text (config.splashScreen.getD "./assets/splash.png")),
          ("resizeMode", .text "contain"),
          ("backgroundColor", background)]),
       ("assetBundlePatterns", .list [.text "**/*"]),
       ("ios", .object
         [("supportsTablet", .bool true),
          ("bundleIdentifier", .text config.packageName)]),
       ("android", .object
         [("adaptiveIcon", .object
           [("foregroundImage", .text "./assets/adaptive-icon.png"),
            ("backgroundColor", background)]),
          ("package", .text config.packageName),
          ("versionCode", .ofUInt32 1),
          ("permissions", .list (config.permissions.map .text))]),
       ("web", .object [("favicon", .text "./assets/favicon.png")])])]

def packageDescriptor (config : Config) : String := (packageJson config).pretty

def manifest (config : Config) : String := (manifestJson config).pretty

/-- The data of the readme template. -/
def readmeData (config : Config) : Value :=
  .object
    [("name", .text config.name),
     ("description", .text config.description),
     ("package_name", .text config.packageName),
     ("version", .text config.version),
     ("orientation", .text config.orientation.name),
     ("min_sdk_version", .ofUInt32 config.minSdkVersion),
     ("target_sdk_version", .ofUInt32 config.targetSdkVersion),
     ("theme", config.theme.toJson),
     ("permission_list", .text ("\n".intercalate (config.permissions.map ("- " ++ ·))))]

def readme (engine : Engine) (config : Config) : Except TemplateError String :=
  engine.render Template.readmeName (readmeData config)

def themeModule (engine : Engine) (config : Config) : Except TemplateError String :=
  engine.render Template.themeName (.object [("theme", config.theme.toJson)])

end AppExport.Bundle
