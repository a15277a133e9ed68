import Contour.Editor.Form

/-!
# What an editor can do

In the first message an editor says what it can do, in many records within records. The server does
not depend on any of it, but the message counts only if every part has its form (`Form.abilities`).
-/

namespace Contour.Editor.Form

/-- A record of truth values. -/
def switches (names : List String) : Form := record (flags names)

/-- An ability that can be registered while the server runs, with more about it. -/
def registered (more : List (String × Form)) : Form :=
  record (("dynamicRegistration", bool) :: more)

/-- A record with the values that the editor knows. -/
def valueSet (value : Form) : Form := record [("valueSet", list value)]

/-- A record with the properties that the editor can ask for later. -/
def laterProperties : Form := record [("properties", list text)]

/-- What an editor can do with the files of a workspace. -/
def workspaceAbilities : Form :=
  record <| flags ["applyEdit", "workspaceFolders", "configuration"] ++
    [("workspaceEdit", record <| flags ["documentChanges", "normalizesLineEndings"] ++
      [("resourceOperations", list text), ("failureHandling", text),
       ("changeAnnotationSupport", switches ["groupsOnLabel"])]),
     ("didChangeConfiguration", registered []),
     ("didChangeWatchedFiles", registered []),
     ("symbol", registered
      [("symbolKind", valueSet integer), ("tagSupport", valueSet integer)]),
     ("executeCommand", registered []),
     ("semanticTokens", switches ["refreshSupport"]),
     ("codeLens", switches ["refreshSupport"]),
     ("fileOperations", registered <| flags
      ["didCreate", "willCreate", "didRename", "willRename", "didDelete", "willDelete"])]

/-- What an editor can do with completions. -/
def completionAbilities : Form :=
  registered
    [("completionItem", record <| flags
      ["snippetSupport", "commitCharactersSupport", "deprecatedSupport", "preselectSupport",
       "insertReplaceSupport"] ++
      [("documentationFormat", list text), ("tagSupport", valueSet integer),
       ("resolveSupport", laterProperties), ("insertTextModeSupport", valueSet integer)]),
     ("completionItemKind", valueSet integer),
     ("contextSupport", bool)]

/-- What an editor can do with the signatures of functions. -/
def signatureAbilities : Form :=
  registered
    [("signatureInformation", record
      [("documentationFormat", list text),
       ("parameterInformation", switches ["labelOffsetSupport"]),
       ("activeParameterSupport", bool)]),
     ("contextSupport", bool)]

/-- What an editor can do with the symbols of a document. -/
def symbolAbilities : Form :=
  registered <| flags ["hierarchicalDocumentSymbolSupport", "labelSupport"] ++
    [("symbolKind", valueSet integer), ("tagSupport", valueSet integer)]

/-- What an editor can do with proposed actions. -/
def actionAbilities : Form :=
  registered <| flags
    ["isPreferredSupport", "disabledSupport", "dataSupport", "honorsChangeAnnotations"] ++
    [("codeActionLiteralSupport", record [("codeActionKind", valueSet text)]),
     ("resolveSupport", laterProperties)]

/-- What an editor can do with classified words. -/
def wordAbilities : Form :=
  registered <| flags ["overlappingTokenSupport", "multilineTokenSupport"] ++
    [("requests", record
      [("range", either bool (record [])), ("full", either bool (switches ["delta"]))]),
     ("tokenTypes", list text), ("tokenModifiers", list text), ("formats", list text)]

/-- What an editor can do with a document. -/
def documentAbilities : Form :=
  let linked : Form := registered (flags ["linkSupport"])
  record
    [("synchronization", registered <| flags ["willSave", "willSaveWaitUntil", "didSave"]),
     ("completion", completionAbilities),
     ("hover", registered [("contentFormat", list text)]),
     ("signatureHelp", signatureAbilities),
     ("declaration", linked), ("definition", linked), ("typeDefinition", linked),
     ("implementation", linked),
     ("references", registered []), ("documentHighlight", registered []),
     ("documentSymbol", symbolAbilities),
     ("codeAction", actionAbilities),
     ("codeLens", registered []),
     ("documentLink", registered (flags ["tooltipSupport"])),
     ("colorProvider", registered []),
     ("formatting", registered []), ("rangeFormatting", registered []),
     ("onTypeFormatting", registered []),
     ("rename", registered <| flags ["prepareSupport", "honorsChangeAnnotations"] ++
      [("prepareSupportDefaultBehavior", integer)]),
     ("publishDiagnostics", record <| flags
      ["relatedInformation", "versionSupport", "codeDescriptionSupport", "dataSupport"] ++
      [("tagSupport", valueSet integer)]),
     ("foldingRange", registered [("rangeLimit", natural), ("lineFoldingOnly", bool)]),
     ("selectionRange", registered []), ("linkedEditingRange", registered []),
     ("callHierarchy", registered []),
     ("semanticTokens", wordAbilities),
     ("moniker", registered [])]

/-- What an editor can show. -/
def windowAbilities : Form :=
  record
    [("workDoneProgress", bool),
     ("showMessage", record [("messageActionItem", switches ["additionalPropertiesSupport"])]),
     ("showDocument", switches ["support"])]

/-- What an editor can do in general. -/
def generalAbilities : Form :=
  record
    [("regularExpressions", record (texts ["engine", "version"])),
     ("markdown", record (texts ["parser", "version"]))]

/-- All that an editor can do. -/
def abilities : Form :=
  record
    [("workspace", workspaceAbilities), ("textDocument", documentAbilities),
     ("window", windowAbilities), ("general", generalAbilities), ("experimental", held)]

end Contour.Editor.Form
