/-
The written form of a history: a declaration, then one element per launch on a line of its own, the
debugged ones first, then the run ones, then the latest launch.
-/
import RecentLaunches.History
import RecentLaunches.Markup.Entity

namespace RecentLaunches

namespace Document

/-- The element around a history. -/
def rootName : List Char := "launchHistory".toList

/-- The element of a list entry. -/
def launchName : List Char := "launch".toList

/-- The element of the latest launch. -/
def latestName : List Char := "lastLaunch".toList

/-- The attribute with the memento. -/
def mementoKey : List Char := "memento".toList

/-- The attribute with the mode. -/
def modeKey : List Char := "mode".toList

/-- The attribute with the label. -/
def labelKey : List Char := "label".toList

/-- What stands before the root element. -/
def declaration : List Char := "<?xml version=\"1.0\" encoding=\"UTF-8\"?>".toList

/-- An attribute in double quotes, after a space. -/
def attributeText (key : List Char) (value : String) : List Char :=
  ' ' :: key ++ '=' :: '"' :: Markup.escape value.toList ++ ['"']

/-- An element for a launch on a line of its own. -/
def launchText (name : List Char) (e : Launch) : List Char :=
  '\n' :: ' ' :: ' ' :: '<' :: name ++ attributeText mementoKey e.memento ++
    attributeText modeKey e.mode.name ++ attributeText labelKey e.label ++ ['/', '>']

/-- The elements inside the root. -/
def innerText (h : History) : List Char :=
  (Mode.all.flatMap fun m => (h.list m).flatMap (launchText launchName)) ++
    h.latest.toList.flatMap (launchText latestName)

/-- The document of a history, as characters. -/
def text (h : History) : List Char :=
  declaration ++ '\n' :: '<' :: rootName ++ '>' :: innerText h ++
    '\n' :: '<' :: '/' :: rootName ++ ['>']

/-- The document of a history. -/
def render (h : History) : String :=
  String.ofList (text h)

end Document

end RecentLaunches
