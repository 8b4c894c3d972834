/-
The modules of a generated app that are the same in every project: its type declarations and the
primitives that its markup is made of.
-/
namespace AppExport.Bundle

def typesModule : String :=
  "\n".intercalate [
    "export interface AppProps \x7b",
    "  // Add your app-specific types here",
    "\x7d",
    "",
    "export interface ComponentProps \x7b",
    "  children?: React.ReactNode;",
    "  style?: any;",
    "\x7d",
    ""]

def primitivesSource : String :=
  "\n".intercalate [
    "import React from 'react';",
    "import \x7b Text as NativeText, TouchableOpacity \x7d from 'react-native';",
    "import type \x7b StyleProp, TextStyle \x7d from 'react-native';",
    "",
    "export \x7b",
    "  View as Container,",
    "  Text,",
    "  TextInput,",
    "  Image,",
    "  ScrollView as ScrollContainer,",
    "  TouchableOpacity as Pressable,",
    "\x7d from 'react-native';",
    "",
    "export interface ButtonProps \x7b",
    "  children?: React.ReactNode;",
    "  style?: StyleProp<TextStyle>;",
    "  onPress?: () => void;",
    "\x7d",
    "",
    "export function Button(\x7b children, style, onPress \x7d: ButtonProps) \x7b",
    "  return (",
    "    <TouchableOpacity onPress=\x7bonPress\x7d>",
    "      <NativeText style=\x7bstyle\x7d>\x7bchildren\x7d</NativeText>",
    "    </TouchableOpacity>",
    "  );",
    "\x7d",
    ""]

end AppExport.Bundle
