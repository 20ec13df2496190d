/-
Module: RelQuery.Sql.Quoting
Purpose: Quoted text in which a closing mark inside the text is written twice.
Main exports: doubled, enclosed
-/

namespace RelQuery.Sql

/-- The text with each occurrence of the mark written twice. -/
def doubled (mark : Char) : List Char → List Char
  | [] => []
  | c :: cs => if c = mark then c :: c :: doubled mark cs else c :: doubled mark cs

/-- The text between an opening and a closing mark, closing marks inside it doubled. -/
def enclosed (opening closing : Char) (s : String) : String :=
  String.ofList (opening :: (doubled closing s.toList ++ [closing]))

end RelQuery.Sql
