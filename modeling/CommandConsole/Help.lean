import CommandConsole.Command.Descriptor
import CommandConsole.Registry

set_option autoImplicit false

/-!
# The help listing

Every command under the heading of its category.  The categories stand in the order in which they
first appear, the commands of a category in the order of the list, and those without a category
at the end.
-/

namespace CommandConsole.Help

/-- The lines above the groups. -/
def header : List Text :=
  ["=== Command List ===".toList, "This is a list of all available commands:".toList, []]

/-- The lines below the groups. -/
def footer : List Text :=
  ["Use TAB to toggle between command history and suggestions, then UP and DOWN to navigate.".toList,
    "Vectors of 2, 3 and 4 components are written in square brackets, e.g. \"[0, 0]\".".toList,
    "=== End of the List ===".toList]

/-- The line of one command. -/
def entry (d : Descriptor) : Text :=
  let signature := "- ".toList ++ d.signature
  match d.description with
  | some description => signature ++ ": ".toList ++ description
  | none => signature

/-- A heading with the lines of its commands and an empty line. -/
def group (heading : Text) (ds : List Descriptor) : List Text :=
  ("# ".toList ++ heading ++ " #".toList) :: (ds.map entry ++ [[]])

/-- The categories, each where it first appears. -/
def categories (ds : List Descriptor) : List Text :=
  Registry.distinct (ds.filterMap Descriptor.category)

/-- The group of one category. -/
def categoryGroup (ds : List Descriptor) (category : Text) : List Text :=
  group category (ds.filter fun d => d.category = some category)

/-- The group of the commands without a category, if there are any. -/
def uncategorizedGroup (ds : List Descriptor) : List Text :=
  match ds.filter fun d => d.category = none with
  | [] => []
  | rest => group "Uncategorized".toList rest

/-- The help listing. -/
def lines (ds : List Descriptor) : List Text :=
  header ++ (categories ds).flatMap (categoryGroup ds) ++ uncategorizedGroup ds ++ footer

end CommandConsole.Help
