/-
The pieces of a text between separators: one more than there are separators, empty ones included.
-/
namespace AppExport.Text

def pieces (separator : Char) : List Char → List (List Char)
  | [] => [[]]
  | c :: rest =>
    if c = separator then [] :: pieces separator rest
    else match pieces separator rest with
      | [] => [[c]]
      | piece :: others => (c :: piece) :: others

end AppExport.Text
