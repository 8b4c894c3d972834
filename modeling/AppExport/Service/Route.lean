/-
The service as it answers on the web: its paths, and the methods that each of them has. A query
behind a path and a host before it are ignored. HEAD is answered as GET without the body.
-/
import AppExport.Service.Export

namespace AppExport.Service

open Json (Value)

inductive Content where
  | none
  | text (s : String)
  | json (v : Value)

structure Reply where
  status : Nat
  mediaType : Option String
  /-- The methods that a path has, told to a request with another one. -/
  allow : Option String
  content : Content

namespace Reply

def json (response : Response) : Reply :=
  ⟨response.status, some "application/json", none, .json response.body⟩

def plain (status : Nat) (s : String) : Reply :=
  ⟨status, some "text/plain; charset=utf-8", none, .text s⟩

def missing : Reply := ⟨404, none, none, .none⟩

def wrongMethod (methods : List String) : Reply :=
  ⟨405, none, some (",".intercalate methods), .none⟩

def withoutContent (r : Reply) : Reply := { r with content := .none }

end Reply

def health : Value :=
  .object [("status", .text "healthy"), ("service", .text "blueprint")]

/-- The longest body that is read. -/
def longestBody : Nat := 2 * 1024 * 1024

/-- What a path answers to each of its methods. -/
structure Route where
  path : String
  get : Value
  post : Option (List UInt8 → Response)

def routes : List Route :=
  [⟨"/api/export", about, some respond⟩,
   ⟨"/health", health, none⟩]

def Route.methods (r : Route) : List String :=
  ["GET", "HEAD"] ++ (if r.post.isSome then ["POST"] else [])

def Route.reply (r : Route) (method : String) (body : List UInt8) : Reply :=
  if method = "GET" then .json ⟨200, r.get⟩
  else if method = "HEAD" then (Reply.json ⟨200, r.get⟩).withoutContent
  else
    match method, r.post with
    | "POST", some handler =>
      if body.length ≤ longestBody then .json (handler body)
      else .plain 413 "Failed to buffer the request body: length limit exceeded"
    | _, _ => .wrongMethod r.methods

def startsQuery (c : Char) : Bool := c = '?' || c = '#'

/-- What follows a scheme and `://`; the first colon ends the scheme. -/
def behindScheme? : List Char → Option (List Char)
  | [] => none
  | ':' :: '/' :: '/' :: rest => some rest
  | c :: rest => if c = ':' then none else behindScheme? rest

/-- The path of a target, without its query. A target that does not begin with a slash names a
scheme and a host before the path, and a host alone has the path `/`. -/
def pathOf? (target : String) : Option String :=
  let cs := target.toList
  if cs.head? = some '/' then some (String.ofList (cs.takeWhile (!startsQuery ·)))
  else (behindScheme? cs).map fun cs =>
    let path := (cs.dropWhile fun c => c ≠ '/' && !startsQuery c).takeWhile (!startsQuery ·)
    if path.isEmpty then "/" else String.ofList path

def reply (method target : String) (body : List UInt8) : Reply :=
  match routes.find? (pathOf? target == some ·.path) with
  | some route => route.reply method body
  | none => .missing

end AppExport.Service
