import PinTable.Listing.Line
import PinTable.DeviceTable

set_option autoImplicit false

namespace PinTable.Listing

def structLines (group : GroupTable) : List String :=
  ["  struct", "  \x7b", "    PinGroupHdr hdr;"] ++
    group.rows.map (fun row => "    Pin " ++ row.pin.name ++ ";") ++
    ["  \x7d", "  " ++ group.kind.name ++ ";"]

def typeLines (table : DeviceTable) : List String :=
  sectionComment (table.title ++ " IO configuration structure") ++
    ["typedef struct"] ++ aggregate (table.groups.map structLines) "\x7d" ++
    [table.base ++ "_t;"]

def declarationLines (table : DeviceTable) : List String :=
  sectionComment (table.title ++ " IO configuration top header structure") ++
    ["extern OS_FLASH_MEM_H IoPinsHdr " ++ table.base ++ "_hdr;"] ++
    sectionComment ("Global " ++ table.title ++ " IO configuration structure") ++
    ["extern OS_FLASH_MEM_H " ++ table.base ++ "_t " ++ table.base ++ ";"]

/-- The title of the sections on the lists of pins by tag. -/
def headsTitle : String := "Application's pin groups (linked list heads)"

/-- The section on the lists of pins by tag, which only a device with tags has. -/
def headsSection (table : DeviceTable) (line : String × QualifiedPin → String) : List String :=
  if table.tags.isEmpty then []
  else sectionComment headsTitle ++ table.tags.headPins.map line

def headDeclaration (base : String) (head : String × QualifiedPin) : String :=
  "extern OS_FLASH_MEM_H Pin *" ++ tagSymbol base head.1 ++ ";"

def constantLines (table : DeviceTable) : List String :=
  sectionComment
      "Name defines for pins and application pin groups (use ifdef to check if HW has pin)" ++
    table.constants.map NameConstant.text

def deviceHeader (table : DeviceTable) : List String :=
  typeLines table ++ declarationLines table ++
    headsSection table (headDeclaration table.base) ++ constantLines table

/-- The line that defines the array of settings of a row. -/
def arrayLine (row : Row) : String :=
  "static os_ushort " ++ row.pin.settingsArray ++ "[]= " ++ braced row.settings.text ++ ";"

def interruptLine (row : Row) : String :=
  "PINS_INTCONF_STRUCT(" ++ row.pin.interruptSymbol ++ ")"

def rowDefinitions (row : Row) : List String :=
  if row.settings.interrupts then [arrayLine row, interruptLine row] else [arrayLine row]

/-- The definitions that a group's rows refer to. -/
def groupDefinitions (group : GroupTable) : List String :=
  if group.rows.isEmpty then []
  else sectionComment ("Parameters for " ++ group.kind.name) ++
    group.rows.flatMap rowDefinitions

/-- The pointer to the chip of a row. -/
def devicePointer (row : Row) : String :=
  match row.device with
  | some symbol => "PINS_DEVCONF_PTR(" ++ symbol ++ ")"
  | none => "PINS_DEVCONF_NULL"

def interruptPointer (row : Row) : String :=
  if row.settings.interrupts then "PINS_INTCONF_PTR(" ++ row.pin.interruptSymbol ++ ")"
  else "PINS_INTCONF_NULL"

def rowLine (last : Bool) (row : Row) : String :=
  let array := row.pin.settingsArray
  "    " ++
    braced (row.pin.kind.typeSymbol ++ ", " ++ intText row.bank ++ ", " ++ intText row.addr ++
      ", " ++ array ++ ", sizeof(" ++ array ++ ")/sizeof(os_ushort), " ++
      QualifiedPin.reference row.next ++ ", " ++ row.signal.getD nullReference ++ " " ++
      devicePointer row ++ " " ++ interruptPointer row) ++
    commaUnless last ++ " /* " ++ row.pin.name ++ " */"

/-- The initializer of a group: the number of its pins, the first of them, and the rows. -/
def groupLines (last : Bool) (group : GroupTable) : List String :=
  let first := QualifiedPin.reference (group.rows.head?.map Row.pin)
  ["  \x7b" ++ braced (natText group.rows.length ++ ", " ++ first) ++ ", /* " ++
      group.kind.name ++ " */"] ++
    mapLast rowLine group.rows ++ ["  \x7d" ++ commaUnless last]

def tableLines (table : DeviceTable) : List String :=
  sectionComment (table.title ++ " IO configuration structure") ++
    ["OS_FLASH_MEM " ++ table.base ++ "_t " ++ table.base ++ " ="] ++
    aggregate (mapLast groupLines table.groups) "\x7d;"

def groupEntry (base : String) (last : Bool) (group : GroupTable) : String :=
  "  &" ++ base ++ "." ++ group.kind.name ++ ".hdr" ++ commaUnless last

def groupListSymbol (base : String) : String := base ++ "_group_list"

/-- The list of groups. A list without entries has an empty line. -/
def groupListLines (table : DeviceTable) : List String :=
  sectionComment "List of pin type groups" ++
    ["static OS_FLASH_MEM PinGroupHdr * OS_FLASH_MEM " ++ groupListSymbol table.base ++ "[] =",
      "\x7b"] ++
    (if table.groups.isEmpty then [""] else mapLast (groupEntry table.base) table.groups) ++
    ["\x7d;"]

def topLines (table : DeviceTable) : List String :=
  let list := groupListSymbol table.base
  sectionComment (table.title ++ " IO configuration top header structure") ++
    ["OS_FLASH_MEM IoPinsHdr " ++ table.base ++ "_hdr = " ++
      braced (list ++ ", sizeof(" ++ list ++ ")/sizeof(PinGroupHdr*)") ++ ";"]

def headDefinition (base : String) (head : String × QualifiedPin) : String :=
  "OS_FLASH_MEM Pin *" ++ tagSymbol base head.1 ++ " = " ++ head.2.address ++ ";"

/-- The source lines of a device. Everything that the table refers to stands before it. -/
def deviceSource (table : DeviceTable) : List String :=
  table.groups.flatMap groupDefinitions ++ tableLines table ++ groupListLines table ++
    topLines table ++ headsSection table (headDefinition table.base)

end PinTable.Listing
