import Northstar.Json
import Northstar.Mapping
import Northstar.Scanning

/-! The content of flight payloads (rsc-extract.ts): the chunks of the pushes, and the walks over their elements
that follow references. Stack depth and the cache of parsed chunks are left out. -/
namespace Northstar.Web.Rsc

def rscMinExtractedContent : Nat := 100

structure RSCExtractResult where
  title : JsString
  content : JsString
  deriving DecidableEq

/- Why extractRSCContent does not return: its steps are spent, or a TypeError. -/
inductive Halt where
  | spent
  | typeError
  deriving DecidableEq

def behind (front text : JsString) : Option JsString := if front <+: text then some (text.drop front.length) else none

def pushOpening : JsString := js "<script>self.__next_f.push([1,\""
def pushClosing : JsString := js "\"])</script>"

/- A match of the pattern of pushes at a place, and how long it is. -/
def pushAt (html : JsString) : Option (JsString × Nat) := do
  let rest ← behind pushOpening html
  let size ← Scanning.indexOf pushClosing rest
  some (rest.take size,pushOpening.length + size + pushClosing.length)

/- The first argument counts what is left of the last match. -/
def pushes : Nat → JsString → List JsString
  | _,[] => []
  | skip+1,_ :: rest => pushes skip rest
  | 0,u :: rest => match pushAt (u :: rest) with
    | some (content,size) => content :: pushes (size - 1) rest
    | none => pushes 0 rest

abbrev ChunkMap := List (JsString × JsString)

def hexUnit (u : UInt16) : Bool := (Json.hexValue u).isSome

def chunkLine (line : JsString) : Option (JsString × JsString) :=
  if trim line = [] then none
  else match Scanning.indexOf [58] line with
    | none => none
    | some colonIdx =>
        let id := line.take colonIdx
        let payload := line.drop (colonIdx + 1)
        if colonIdx = 0 ∨ 4 < colonIdx then none
        else if id.all hexUnit then if payload = [] then none else some (id,payload)
        else none

/- The longest payload of an id is kept. -/
def addChunk (chunkMap : ChunkMap) (chunk : JsString × JsString) : ChunkMap := match Mapping.look chunkMap chunk.1 with
  | some existing => if existing.length < chunk.2.length then Mapping.put chunkMap chunk.1 chunk.2 else chunkMap
  | none => Mapping.put chunkMap chunk.1 chunk.2

/- `/<title[^>]*>([^<]+)<\/title>/` at a place. -/
def titleAt (html : JsString) : Option JsString := do
  let rest ← behind (js "<title") html
  let body ← behind [62] (rest.dropWhile (· ≠ 62))
  let _ ← behind (js "</title>") (body.dropWhile (· ≠ 60))
  if body.takeWhile (· ≠ 60) = [] then none else some (body.takeWhile (· ≠ 60))

def titleOf (html : JsString) : JsString :=
  ((html.tails.findSome? titleAt).map fun text => trim (text.takeWhile (· ≠ 124))).getD []

/- `/^\$L([0-9a-f]+)$/i`. -/
def reference : JsString → Option JsString
  | 36 :: u :: refId => if (u = 76 ∨ u = 108) ∧ refId ≠ [] ∧ refId.all hexUnit then some refId else none
  | _ => none

def truthy : JsValue → Bool
  | .undefined => false
  | .null => false
  | .bool value => value
  | .number value => value.script ≠ js "0" && value.script ≠ js "NaN"
  | .string value => value ≠ []
  | .array _ => true
  | .object _ => true

/- String of a value; none where it throws: no field of parsed JSON is a function, and an own toString hides the
built-in one. -/
mutual
def string : JsValue → Option JsString
  | .undefined => some (js "undefined")
  | .null => some (js "null")
  | .bool true => some (js "true")
  | .bool false => some (js "false")
  | .number value => some value.script
  | .string value => some value
  | .array items => (strings items).map [44].intercalate
  | .object fields => if fields.any (·.1 = js "toString") then none else some (js "[object Object]")

def strings : List JsValue → Option (List JsString)
  | [] => some []
  | .undefined :: rest => (strings rest).map ([] :: ·)
  | .null :: rest => (strings rest).map ([] :: ·)
  | item :: rest => match string item with
    | none => none
    | some text => (strings rest).map (text :: ·)
end

structure Ctx where
  inTable : Bool
  inCode : Bool
  deriving DecidableEq

def upperCase (u : UInt16) : Bool := 65 ≤ u && u ≤ 90

/- Artifacts of the payload: "$undefined", "$" and what starts with "$" and a capital. -/
def artifact : JsString → Bool
  | [36] => true
  | 36 :: u :: rest => upperCase u || u :: rest = js "undefined"
  | _ => false

def plainText (node : JsString) (ctx : Ctx) : JsString :=
  if !ctx.inCode && artifact node then [] else if trim node = [] then [] else node

def skipTags : List JsString := [js "script",js "style",js "svg",js "path",js "circle",js "link",js "meta",js "template",js "button",
  js "input",js "nav",js "footer",js "aside"]

/- `node[3] || {}`. -/
def propsOf (items : List JsValue) : JsValue :=
  let given := items[3]?.getD .undefined
  if truthy given then given else .object []

/- `node[0] === "$"`. -/
def headed (items : List JsValue) : Bool := match items.head? with
  | some (.string [36]) => true
  | _ => false

def tagOf (items : List JsValue) : Option JsString := items[1]?.bind JsValue.asString

def elementTag (items : List JsValue) : Option JsString := if headed items then tagOf items else none

def childrenOf (items : List JsValue) : JsValue := (propsOf items).get "children"

/- What the switch makes of the elements whose text is read once. -/
def marked (tag : JsString) (props : JsValue) (ctx : Ctx) (content : JsString) : JsString :=
  if tag = js "h1" then js "# " ++ trim content ++ [10,10]
  else if tag = js "h2" then js "## " ++ trim content ++ [10,10]
  else if tag = js "h3" then js "### " ++ trim content ++ [10,10]
  else if tag = js "h4" then js "#### " ++ trim content ++ [10,10]
  else if tag = js "h5" then js "##### " ++ trim content ++ [10,10]
  else if tag = js "h6" then js "###### " ++ trim content ++ [10,10]
  else if tag = js "p" then if ctx.inTable then content else trim content ++ [10,10]
  else if tag = js "strong" ∨ tag = js "b" then js "**" ++ content ++ js "**"
  else if tag = js "em" ∨ tag = js "i" then js "*" ++ content ++ js "*"
  else if tag = js "li" then js "- " ++ trim content ++ [10]
  else if tag = js "ul" ∨ tag = js "ol" then content ++ [10]
  else if tag = js "blockquote" then js "> " ++ trim content ++ [10,10]
  else if tag = js "div" then
    if (props.get "role").asString = some (js "alert") ∨ (props.get "data-slot").asString = some (js "alert") then
      js "> " ++ trim content ++ [10,10]
    else content
  else content

abbrev Walk := StateT (List JsString) (Except Halt)

/- A walk with a reference among the visited, which it leaves again. -/
def visiting {α : Type} (refId : JsString) (walk : Walk α) : Walk α := do
  modify (Mapping.join · refId)
  let value ← walk
  modify (Mapping.leave · refId)
  pure value

structure Table where
  rows : List (List JsString)
  headerRowCount : Nat
  deriving DecidableEq

def cellText (text : JsString) : JsString := (trim text).flatMap fun u =>
  if u = 10 then [32] else if u = 92 then [92,92] else if u = 124 then [92,124] else [u]

def renderRow (cells : List JsString) : JsString := js "| " ++ (js " | ").intercalate cells ++ js " |" ++ [10]

def renderTable (table : Table) : JsString :=
  let colCount := (table.rows.map List.length).foldr max 0
  table.rows.zipIdx.flatMap fun (row,i) =>
    renderRow (row ++ List.replicate (colCount - row.length) []) ++
      if i + 1 = table.headerRowCount ∨ (table.headerRowCount = 0 ∧ i = 0) then renderRow (List.replicate colCount (js "---")) else []

/- `children ? extractNode(children) : ""`. -/
def readChildren (extract : JsValue → Walk JsString) (props : JsValue) : Walk JsString :=
  if truthy (props.get "children") then extract (props.get "children") else pure []

section Walking

variable (numerals : Json.Numerals)

def contentChunks (chunkMap : ChunkMap) (content : JsString) : ChunkMap :=
  match Json.parse numerals ([34] ++ content ++ [34]) with
  | some (.string text) => ((text.splitOn 10).filterMap chunkLine).foldl addChunk chunkMap
  | _ => chunkMap

def chunksOf (html : JsString) : ChunkMap := (pushes 0 html).foldl (contentChunks numerals) []

variable (chunkMap : ChunkMap)

def getParsedChunk (id : JsString) : Option JsValue :=
  (Mapping.look chunkMap id).bind fun chunk => if [91] <+: chunk then Json.parse numerals chunk else none

/- How the walks go on at a reference. -/
def follow {α : Type} (refId : JsString) (walk : JsValue → Walk α) (otherwise : α) : Walk α := do
  if refId ∈ (← get) then pure otherwise
  else visiting refId (match getParsedChunk numerals chunkMap refId with
    | some refNode => walk refNode
    | none => pure otherwise)

/- A component: a heading, what it refers to, or else its children. -/
def component (extract : JsValue → Walk JsString) (refId : JsString) (props : JsValue) : Walk JsString := do
  let children := props.get "children"
  if refId ∈ (← get) then pure []
  else if truthy (props.get "baseId") && truthy children then match string children with
    | some text => pure (js "## " ++ text ++ [10,10])
    | none => throw .typeError
  else visiting refId (match getParsedChunk numerals chunkMap refId with
    | some refNode => extract refNode
    | none => readChildren extract props)

/- `href && !href.startsWith("#")`; only strings have startsWith. -/
def linked (content : JsString) (href : JsValue) : Walk JsString :=
  if !truthy href then pure content
  else match href with
    | .string href => pure (if [35] <+: href then content else [91] ++ content ++ [93,40] ++ href ++ [41])
    | _ => throw .typeError

def element (extract : JsValue → Ctx → Walk JsString) (table : JsValue → Walk JsString) (tag : JsString) (props : JsValue) (ctx : Ctx) :
    Walk JsString := do
  let content ← readChildren (extract · ctx) props
  if tag = js "code" then do
    let codeContent ← readChildren (extract · ⟨ctx.inTable,true⟩) props
    pure (if ctx.inCode then codeContent else [96] ++ codeContent ++ [96])
  else if tag = js "pre" then do
    let preContent ← readChildren (extract · ⟨ctx.inTable,true⟩) props
    pure (js "```\n" ++ preContent ++ js "\n```\n\n")
  else if tag = js "table" then do
    let text ← table (props.get "children")
    pure (text ++ [10])
  else if tag = js "a" then linked content (props.get "href")
  else pure (marked tag props ctx content)

def nodeStep (extract : JsValue → Ctx → Walk JsString) (table : JsValue → Walk JsString) (ctx : Ctx) : JsValue → Walk JsString
  | .string node => match reference node with
    | some refId => follow numerals chunkMap refId (extract · ctx) []
    | none => pure (plainText node ctx)
  | .number node => pure node.script
  | .array items => match elementTag items with
    | some tag =>
        if tag ∈ skipTags then pure []
        else if js "$L" <+: tag then component numerals chunkMap (extract · ctx) (tag.drop 2) (propsOf items)
        else element extract table tag (propsOf items) ctx
    | none => do
        let texts ← items.mapM (extract · ctx)
        pure texts.flatten
  | _ => pure []

/- The tag of a table's element is taken for a string. -/
def tableStep (cells : JsValue → List JsString → Walk (List JsString)) (walk : JsValue → Bool → Table → Walk Table) (isHeader : Bool)
    (table : Table) : JsValue → Walk Table
  | .string node => match reference node with
    | some refId => follow numerals chunkMap refId (walk · isHeader table) table
    | none => pure table
  | .array items =>
      if headed items then match tagOf items with
        | none => throw .typeError
        | some tag =>
            if js "$L" <+: tag then follow numerals chunkMap (tag.drop 2) (walk · isHeader table) table
            else if tag = js "thead" then walk (childrenOf items) true table
            else if tag = js "tbody" then walk (childrenOf items) false table
            else if tag = js "tr" then do
              let row ← cells (childrenOf items) []
              pure (if row = [] then table else ⟨table.rows ++ [row],table.headerRowCount + if isHeader then 1 else 0⟩)
            else walk (childrenOf items) isHeader table
      else items.foldlM (fun table child => walk child isHeader table) table
  | _ => pure table

def cellsStep (extract : JsValue → Ctx → Walk JsString) (walk : JsValue → List JsString → Walk (List JsString)) (cells : List JsString) :
    JsValue → Walk (List JsString)
  | .string node => match reference node with
    | some refId => follow numerals chunkMap refId (walk · cells) cells
    | none => pure cells
  | .array items => match elementTag items with
    | some tag =>
        if tag = js "td" ∨ tag = js "th" then do
          let text ← extract (childrenOf items) ⟨true,false⟩
          pure (cells ++ [cellText text])
        else if js "$L" <+: tag then follow numerals chunkMap (tag.drop 2) (walk · cells) cells
        else items.foldlM (fun cells child => walk child cells) cells
    | none => items.foldlM (fun cells child => walk child cells) cells
  | _ => pure cells

/- The walks call each other; the first argument counts the calls that may still be nested. -/
mutual
def extractNode : Nat → JsValue → Ctx → Walk JsString
  | 0,_,_ => throw .spent
  | steps+1,node,ctx => nodeStep numerals chunkMap (extractNode steps)
      (fun children => do
        let table ← walkTable steps children false ⟨[],0⟩
        pure (if table.rows = [] then [] else renderTable table)) ctx node

def walkTable : Nat → JsValue → Bool → Table → Walk Table
  | 0,_,_,_ => throw .spent
  | steps+1,node,isHeader,table => tableStep numerals chunkMap (walkCells steps) (walkTable steps) isHeader table node

def walkCells : Nat → JsValue → List JsString → Walk (List JsString)
  | 0,_,_ => throw .spent
  | steps+1,node,cells => cellsStep numerals chunkMap (extractNode steps) (walkCells steps) cells node
end

def parsedChunks : List JsValue := chunkMap.filterMap fun chunk => getParsedChunk numerals chunkMap chunk.1

end Walking

mutual
def weight : JsValue → Nat
  | .undefined => 0
  | .array items => weightItems items + 1
  | .object fields => weightFields fields + 1
  | _ => 1

def weightItems : List JsValue → Nat
  | [] => 0
  | item :: rest => weight item + weightItems rest

def weightFields : List (JsString × JsValue) → Nat
  | [] => 0
  | (_,content) :: rest => weight content + weightFields rest
end

section Extracting

variable (numerals : Json.Numerals) (chunkMap : ChunkMap)

/- The weight of the heaviest chunk, and how deep calls can be nested. -/
def heaviest : Nat := ((parsedChunks numerals chunkMap).map weight).foldr max 0

def nesting : Nat := (chunkMap.length + 1) * (heaviest numerals chunkMap + 1)

def extractChunk (node : JsValue) : Walk JsString := extractNode numerals chunkMap (nesting numerals chunkMap) node ⟨false,false⟩

structure ContentPart where
  order : Nat
  text : JsString

/- `parseInt(id, 16)`. -/
def orderOf (id : JsString) : Nat := id.foldl (fun n u => n * 16 + (Json.hexValue u).getD 0) 0

def includes (part text : JsString) : Bool := (Scanning.indexOf part text).isSome

/- A chunk beside the main one: its text counts when it is long enough and no error page. -/
def otherPart (contentParts : List ContentPart) (chunk : JsString × JsString) : Walk (List ContentPart) :=
  if chunk.1 = js "23" then pure contentParts
  else match getParsedChunk numerals chunkMap chunk.1 with
    | none => pure contentParts
    | some parsed => do
        set ([] : List JsString)
        let text ← extractChunk numerals chunkMap parsed
        pure (if 50 < (trim text).length ∧ !includes (js "page was not found") text ∧ !includes (js "404") text then
          contentParts ++ [⟨orderOf chunk.1,trim text⟩] else contentParts)

/- `/\n{3,}/g` by two line feeds; the first argument counts the line feeds just before. -/
def squeeze : Nat → JsString → JsString
  | n,[] => List.replicate (if 3 ≤ n then 2 else n) 10
  | n,u :: rest => if u = 10 then squeeze (n + 1) rest else List.replicate (if 3 ≤ n then 2 else n) 10 ++ u :: squeeze 0 rest

def uniqueParts : List JsString → List JsString → List JsString
  | _,[] => []
  | seen,text :: rest => if text.take 150 ∈ seen then uniqueParts seen rest else text :: uniqueParts (text.take 150 :: seen) rest

def joinParts (title : JsString) (contentParts : List ContentPart) : Option RSCExtractResult :=
  if contentParts = [] then none
  else
    let sorted := contentParts.mergeSort fun a b => a.order ≤ b.order
    let content := trim (squeeze 0 ([10,10].intercalate (uniqueParts [] (sorted.map ContentPart.text))))
    if rscMinExtractedContent < content.length then some ⟨title,content⟩ else none

def fallback (title : JsString) : Walk (Option RSCExtractResult) := do
  let contentParts ← chunkMap.foldlM (otherPart numerals chunkMap) []
  pure (joinParts title contentParts)

def extractPage (title : JsString) : Walk (Option RSCExtractResult) := match getParsedChunk numerals chunkMap (js "23") with
  | none => fallback numerals chunkMap title
  | some mainChunk => do
      let content ← extractChunk numerals chunkMap mainChunk
      if rscMinExtractedContent < (trim content).length then pure (some ⟨title,trim (squeeze 0 content)⟩)
      else fallback numerals chunkMap title

def extractRSCContent (html : JsString) : Except Halt (Option RSCExtractResult) :=
  if !includes (js "self.__next_f.push") html then .ok none
  else if chunksOf numerals html = [] then .ok none
  else (extractPage numerals (chunksOf numerals html) (titleOf html) []).map Prod.fst

end Extracting

end Northstar.Web.Rsc
