import WhereClause.Failure.Basic

/-!
# Issues

An issue is what a user gets to read about a failure: an introduction, the places to look at, and
remarks below.
-/

namespace WhereClause

/-- A place to look at, with a caption that may be empty. -/
structure Annotation where
  site : Option Site
  caption : String

def Annotation.line (a : Annotation) : String :=
  "  at " ++ (a.site.map Site.render).getD "None" ++
    (if a.caption.isEmpty then "" else "  <-- " ++ a.caption)

/-- Something to tell a user. -/
structure Issue where
  intro : String
  annotations : List Annotation
  footer : List String

/-- The introduction, an empty line, and the rest line by line. -/
def Issue.text (i : Issue) : String :=
  Text.joined "\n" ([i.intro, ""] ++ i.annotations.map Annotation.line ++ i.footer)

/-- The call that a failure is put down to, with the function that makes it. -/
def Failure.annotations (f : Failure) : List Annotation :=
  match f.site with
  | none => []
  | some site =>
    match f.function with
    | none => [⟨some site, ""⟩]
    | some name => [⟨some site, if name.isEmpty then "" else "in " ++ name⟩]

/-- What to tell about a failure, and about the implementation that was looked at. -/
def Failure.issue (f : Failure) (implementation : Option Ty) : Issue where
  intro := f.cause.kind.headline
  annotations := f.annotations
  footer :=
    (" - " ++ f.cause.text) ::
      (implementation.map fun t =>
        " - while inferring bounds for the implementation of " ++ t.render).toList

end WhereClause
