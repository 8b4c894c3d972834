/-
The templates of the documents that every project has: its readme, its theme constants and its
build instructions.
-/
import AppExport.Template.Render

namespace AppExport.Template

def readmeName : String := "readme"

def themeName : String := "theme"

def instructionsName : String := "build-instructions"

def readmeSource : String :=
  "\n".intercalate [
    "# \x7b\x7bname\x7d\x7d",
    "",
    "\x7b\x7bdescription\x7d\x7d",
    "",
    "## Getting Started",
    "",
    "1. Install dependencies:",
    "   ```bash",
    "   npm install",
    "   ```",
    "",
    "2. Start the development server:",
    "   ```bash",
    "   npm start",
    "   ```",
    "",
    "3. Run on device:",
    "   - **Android**: `npm run android`",
    "   - **iOS**: `npm run ios`",
    "   - **Web**: `npm run web`",
    "",
    "## Building for Production",
    "",
    "### Android APK",
    "```bash",
    "expo build:android",
    "```",
    "",
    "### iOS App",
    "```bash",
    "expo build:ios",
    "```",
    "",
    "## App Configuration",
    "",
    "- **Package Name**: \x7b\x7bpackage_name\x7d\x7d",
    "- **Version**: \x7b\x7bversion\x7d\x7d",
    "- **Orientation**: \x7b\x7borientation\x7d\x7d",
    "- **Min SDK Version**: \x7b\x7bmin_sdk_version\x7d\x7d",
    "- **Target SDK Version**: \x7b\x7btarget_sdk_version\x7d\x7d",
    "",
    "## Theme",
    "",
    "- **Primary Color**: \x7b\x7btheme.primaryColor\x7d\x7d",
    "- **Secondary Color**: \x7b\x7btheme.secondaryColor\x7d\x7d",
    "- **Background Color**: \x7b\x7btheme.backgroundColor\x7d\x7d",
    "- **Text Color**: \x7b\x7btheme.textColor\x7d\x7d",
    "",
    "## Permissions",
    "",
    "\x7b\x7bpermission_list\x7d\x7d",
    "",
    "---",
    "",
    "Generated with Blueprint",
    ""]

def themeSource : String :=
  "\n".intercalate [
    "export const theme = \x7b",
    "  primaryColor: \x7b\x7bjson theme.primaryColor\x7d\x7d,",
    "  secondaryColor: \x7b\x7bjson theme.secondaryColor\x7d\x7d,",
    "  backgroundColor: \x7b\x7bjson theme.backgroundColor\x7d\x7d,",
    "  textColor: \x7b\x7bjson theme.textColor\x7d\x7d,",
    "\x7d;",
    "",
    "export const spacing = \x7b",
    "  xs: 4,",
    "  sm: 8,",
    "  md: 16,",
    "  lg: 24,",
    "  xl: 32,",
    "\x7d;",
    ""]

def instructionsSource : String :=
  "\n".intercalate [
    "# Build Instructions for \x7b\x7bname\x7d\x7d",
    "",
    "Platform: \x7b\x7bplatform\x7d\x7d",
    "Build type: \x7b\x7bupper build_type\x7d\x7d",
    "",
    "## Prerequisites",
    "\x7b\x7bprerequisites\x7d\x7d",
    "",
    "## Build Steps",
    "\x7b\x7bsteps\x7d\x7d",
    "\x7b\x7brelease\x7d\x7d"]

/-- The engine with these templates in it. -/
def Engine.builtin : Except TemplateError Engine :=
  Engine.empty.register readmeName readmeSource
    >>= register themeName themeSource
    >>= register instructionsName instructionsSource

end AppExport.Template
