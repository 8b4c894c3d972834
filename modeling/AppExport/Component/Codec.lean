/-
Components as JSON. Writing leaves out what is absent, empty styles and empty lists of children;
reading accepts any value for a content property (null for none, text as it is, anything else as
its JSON text) and any value for the nested style, of which only an object has entries.
-/
import AppExport.Component.Node
import AppExport.Component.StyleValue

namespace AppExport.Component

open Json (Decoder Entries Field Members Record Value orNull)

/-! ## Writing -/

/-- The entry of a value that may be absent. -/
def optionalEntry (key : String) (value : Option Value) : Entries :=
  match value with
  | some v => [(key, v)]
  | none => []

def optionalText (key : String) (s : Option String) : Entries := optionalEntry key (s.map .text)

def Props.toJson (p : Props) : Value :=
  .object <|
    optionalText "text" p.text ++
    optionalText "placeholder" p.placeholder ++
    optionalText "source" p.source ++
    optionalText "url" p.url ++
    optionalText "onPress" p.onPress ++
    optionalEntry "color" p.color ++
    optionalEntry "backgroundColor" p.backgroundColor ++
    optionalEntry "fontSize" p.fontSize ++
    optionalEntry "borderRadius" p.borderRadius ++
    optionalEntry "padding" p.padding ++
    optionalEntry "margin" p.margin ++
    (if p.style.isEmpty then [] else [("style", .object p.style.entries)]) ++
    p.extra.entries

def Position.toJson (p : Position) : Value :=
  .object [("x", .number (.float p.x)), ("y", .number (.float p.y))]

def Size.toJson (s : Size) : Value :=
  .object [("width", .number (.float s.width)), ("height", .number (.float s.height))]

namespace Node

mutual
def toJson : Node → Value
  | ⟨id, kind, props, children, position, size⟩ =>
    .object <|
      [("id", .text id), ("type", .text kind.name), ("props", props.toJson)] ++
      (match children with
        | [] => []
        | _ => [("children", .list (allToJson children))]) ++
      optionalEntry "position" (position.map Position.toJson) ++
      optionalEntry "size" (size.map Size.toJson)

def allToJson : List Node → List Value
  | [] => []
  | node :: rest => node.toJson :: allToJson rest
end

end Node

def Forest.toJson (forest : Forest) : Value := .list (Node.allToJson forest)

/-! ## Reading -/

/-- What any value says as a content property. -/
def contentOf : Value → Option String
  | .null => none
  | .text s => some s
  | v => some v.compact

def content : Decoder (Option String) := fun room c => do
  let (v, c) ← Json.value room c
  .ok (contentOf v, c)

/-- The style that any value stands for; an entry without a style value is left out. -/
def styleOf : Value → Style
  | .object entries =>
    .ofEntries (entries.filterMap fun (key, v) => (styleValue? v).map fun v => (key, v))
  | _ => .empty

def style : Decoder Style := fun room c => do
  let (v, c) ← Json.value room c
  .ok (styleOf v, c)

/-- The properties read so far. -/
structure PropsDraft where
  text : Option (Option String) := none
  placeholder : Option (Option String) := none
  source : Option (Option String) := none
  url : Option (Option String) := none
  onPress : Option (Option String) := none
  color : Option (Option Value) := none
  backgroundColor : Option (Option Value) := none
  fontSize : Option (Option Value) := none
  borderRadius : Option (Option Value) := none
  padding : Option (Option Value) := none
  margin : Option (Option Value) := none
  style : Option Style := none
  extra : Members := .empty

def PropsDraft.finish (d : PropsDraft) : Props where
  text := d.text.getD none
  placeholder := d.placeholder.getD none
  source := d.source.getD none
  url := d.url.getD none
  onPress := d.onPress.getD none
  color := d.color.getD none
  backgroundColor := d.backgroundColor.getD none
  fontSize := d.fontSize.getD none
  borderRadius := d.borderRadius.getD none
  padding := d.padding.getD none
  margin := d.margin.getD none
  style := d.style.getD .empty
  extra := d.extra

/-- Properties are an object; keys without a meaning are kept. -/
def propsRecord : Record PropsDraft Props where
  label := "struct ComponentProps"
  fields :=
    [.slot "text" [] true (·.text) ({ · with text := some · }) content,
     .slot "placeholder" [] true (·.placeholder) ({ · with placeholder := some · }) content,
     .slot "source" [] true (·.source) ({ · with source := some · }) content,
     .slot "url" [] true (·.url) ({ · with url := some · }) content,
     .slot "onPress" [] true (·.onPress) ({ · with onPress := some · }) content,
     .slot "color" [] true (·.color) ({ · with color := some · }) (orNull styleValue),
     .slot "backgroundColor" [] true (·.backgroundColor) ({ · with backgroundColor := some · })
       (orNull styleValue),
     .slot "fontSize" [] true (·.fontSize) ({ · with fontSize := some · }) (orNull styleValue),
     .slot "borderRadius" [] true (·.borderRadius) ({ · with borderRadius := some · })
       (orNull styleValue),
     .slot "padding" [] true (·.padding) ({ · with padding := some · }) (orNull styleValue),
     .slot "margin" [] true (·.margin) ({ · with margin := some · }) (orNull styleValue),
     .slot "style" [] true (·.style) ({ · with style := some · }) style]
  others := some fun key draft room c => do
    let (v, c) ← styleValue room c
    .ok ({ draft with extra := draft.extra.insert key v }, c)
  positional := false
  start := {}
  finish draft := some draft.finish

/-- Two numbers under two names. -/
def pairRecord {α : Type} (label first second : String)
    (make : Decimal.Binary64 → Decimal.Binary64 → α) :
    Record (Option Decimal.Binary64 × Option Decimal.Binary64) α where
  label := label
  fields :=
    [.slot first [] false (·.1) (fun d x => (some x, d.2)) fun _ => Json.binary64,
     .slot second [] false (·.2) (fun d x => (d.1, some x)) fun _ => Json.binary64]
  others := none
  positional := true
  start := (none, none)
  finish d := do return make (← d.1) (← d.2)

def position : Decoder Position := (pairRecord "struct Position" "x" "y" Position.mk).decoder

def size : Decoder Size := (pairRecord "struct Size" "width" "height" Size.mk).decoder

structure NodeDraft where
  id : Option String := none
  kind : Option Kind := none
  props : Option Props := none
  children : Option (List Node) := none
  position : Option (Option Position) := none
  size : Option (Option Size) := none

def NodeDraft.finish (d : NodeDraft) : Option Node := do
  return {
    id := ← d.id
    kind := ← d.kind
    props := d.props.getD .empty
    children := d.children.getD []
    position := d.position.getD none
    size := d.size.getD none }

def kind : Decoder Kind := fun _ c => do
  let (s, c) ← Json.text "a string" c
  .ok (Kind.ofName s, c)

/-- A node whose children are read by `child`. -/
def nodeRecord (child : Decoder Node) : Record NodeDraft Node where
  label := "struct ComponentNode"
  fields :=
    [.slot "id" [] false (·.id) ({ · with id := some · }) fun _ => Json.text "a string",
     .slot "type" ["kind"] false (·.kind) ({ · with kind := some · }) kind,
     .slot "props" ["properties"] true (·.props) ({ · with props := some · }) propsRecord.decoder,
     .slot "children" [] true (·.children) ({ · with children := some · })
       (Json.listOf "a sequence" child),
     .slot "position" [] true (·.position) ({ · with position := some · }) (orNull position),
     .slot "size" [] true (·.size) ({ · with size := some · }) (orNull size)]
  others := none
  positional := true
  start := {}
  finish := NodeDraft.finish

/-- A node takes one bracket and its list of children another, so a child has two fewer to open. -/
def node : Decoder Node
  | 0 => (nodeRecord fun _ => Json.refuse "").decoder 0
  | 1 => (nodeRecord fun _ => Json.refuse "").decoder 1
  | room + 2 => (nodeRecord fun _ => node room).decoder (room + 2)

def forest : Decoder Forest := Json.listOf "a sequence" node

end AppExport.Component
