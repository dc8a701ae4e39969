/-!
# Roles

The roles of WAI-ARIA 1.1 that a locator can name. Each has one written name, which is both its
value in a `role` attribute and its word in a locator.

## Main results

* `ofName?_name`, `name_of_ofName?`: a name denotes the one role that it is the name of.
-/

namespace AriaLocator

/-- A role. -/
inductive Role where
  | alert
  | alertDialog
  | application
  | article
  | banner
  | button
  | cell
  | checkbox
  | columnHeader
  | combobox
  | complementary
  | contentInfo
  | definition
  | dialog
  | directory
  | document
  | feed
  | figure
  | form
  | grid
  | gridCell
  | group
  | heading
  | img
  | link
  | list
  | listbox
  | listItem
  | log
  | main
  | marquee
  | math
  | menu
  | menuBar
  | menuItem
  | menuItemCheckbox
  | menuItemRadio
  | navigation
  | note
  | option
  | progressBar
  | radio
  | radioGroup
  | region
  | row
  | rowGroup
  | rowHeader
  | scrollbar
  | search
  | searchbox
  | separator
  | slider
  | spinButton
  | status
  | switch
  | tab
  | table
  | tabList
  | tabPanel
  | term
  | textbox
  | timer
  | toolbar
  | tooltip
  | tree
  | treeGrid
  | treeItem
deriving DecidableEq, Repr

namespace Role

/-- Every role with its name, in alphabetical order. -/
def names : List (Role × String) :=
  [(alert, "alert"), (alertDialog, "alertdialog"), (application, "application"),
    (article, "article"), (banner, "banner"), (button, "button"), (cell, "cell"),
    (checkbox, "checkbox"), (columnHeader, "columnheader"), (combobox, "combobox"),
    (complementary, "complementary"), (contentInfo, "contentinfo"), (definition, "definition"),
    (dialog, "dialog"), (directory, "directory"), (document, "document"), (feed, "feed"),
    (figure, "figure"), (form, "form"), (grid, "grid"), (gridCell, "gridcell"), (group, "group"),
    (heading, "heading"), (img, "img"), (link, "link"), (list, "list"), (listbox, "listbox"),
    (listItem, "listitem"), (log, "log"), (main, "main"), (marquee, "marquee"), (math, "math"),
    (menu, "menu"), (menuBar, "menubar"), (menuItem, "menuitem"),
    (menuItemCheckbox, "menuitemcheckbox"), (menuItemRadio, "menuitemradio"),
    (navigation, "navigation"), (note, "note"), (option, "option"), (progressBar, "progressbar"),
    (radio, "radio"), (radioGroup, "radiogroup"), (region, "region"), (row, "row"),
    (rowGroup, "rowgroup"), (rowHeader, "rowheader"), (scrollbar, "scrollbar"),
    (search, "search"), (searchbox, "searchbox"), (separator, "separator"), (slider, "slider"),
    (spinButton, "spinbutton"), (status, "status"), (switch, "switch"), (tab, "tab"),
    (table, "table"), (tabList, "tablist"), (tabPanel, "tabpanel"), (term, "term"),
    (textbox, "textbox"), (timer, "timer"), (toolbar, "toolbar"), (tooltip, "tooltip"),
    (tree, "tree"), (treeGrid, "treegrid"), (treeItem, "treeitem")]

/-- Every role, in alphabetical order of the names. -/
def all : List Role := names.map (·.1)

/-- The name of a role. -/
def name (role : Role) : String := (names.lookup role).getD ""

/-- The role with a name. -/
def ofName? (s : String) : Option Role := (names.find? fun entry => entry.2 == s).map (·.1)

theorem mem_all (role : Role) : role ∈ all := by
  cases role <;> decide

theorem ofName?_name (role : Role) : ofName? role.name = some role := by
  have hAll : ∀ role ∈ all, ofName? role.name = some role := by decide
  exact hAll role (mem_all role)

theorem name_of_ofName? {s : String} {role : Role} (h : ofName? s = some role) :
    role.name = s := by
  obtain ⟨⟨found, text⟩, hFind, hRole⟩ := Option.map_eq_some_iff.mp h
  have hText : text = s := by simpa using List.find?_some hFind
  have hMem := List.mem_of_find?_eq_some hFind
  have hAll : ∀ entry ∈ names, entry.1.name = entry.2 := by decide
  rw [← hRole, ← hText]
  exact hAll _ hMem

/-- What is said of a text that is the name of no role. -/
def unknownMessage (s : String) : String := "Unknown role: " ++ s

/-- The values of a `role` attribute that take an element's role away. -/
def ignoredNames : List String := ["presentation", "none"]

/-- The roles whose descendants have no semantics of their own. -/
def withPresentationalChildren : List Role :=
  [button, checkbox, img, math, menuItemCheckbox, menuItemRadio, option, progressBar, radio,
    scrollbar, separator, slider, switch, tab]

/-- Whether the descendants of an element with this role have no semantics of their own. -/
def hasPresentationalChildren (role : Role) : Bool := withPresentationalChildren.contains role

end Role

end AriaLocator
