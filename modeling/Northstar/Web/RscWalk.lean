import Northstar.Undoing
import Northstar.Web.RscExtract

/-! What the walks of rsc-extract.ts call and where they throw, and that they end on every page, cyclic references
included. -/
namespace Northstar.Web.Rsc
open Undoing

inductive Place where
  | node (value : JsValue)
  | table (value : JsValue)
  | cells (value : JsValue)

def Place.value : Place → JsValue
  | .node value => value
  | .table value => value
  | .cells value => value

/- A place to walk, with the references that are being followed. -/
structure Task where
  visited : List JsString
  place : Place

def heading (props : JsValue) : Prop := truthy (props.get "baseId") = true ∧ truthy (props.get "children") = true

instance (props : JsValue) : Decidable (heading props) := by
  unfold heading
  infer_instance

section Tasks

variable (numerals : Json.Numerals) (chunkMap : ChunkMap)

def followed (visited : List JsString) (refId : JsString) (go : JsValue → Place) : List Task :=
  if refId ∈ visited then []
  else match getParsedChunk numerals chunkMap refId with
    | some parsed => [⟨Mapping.join visited refId,go parsed⟩]
    | none => []

def children (visited : List JsString) (props : JsValue) : List Task :=
  if truthy (props.get "children") then [⟨visited,.node (props.get "children")⟩] else []

def componentCalls (visited : List JsString) (refId : JsString) (props : JsValue) : List Task :=
  if refId ∈ visited ∨ heading props then []
  else match getParsedChunk numerals chunkMap refId with
    | some parsed => [⟨Mapping.join visited refId,.node parsed⟩]
    | none => children (Mapping.join visited refId) props

def elementCalls (visited : List JsString) (tag : JsString) (props : JsValue) : List Task :=
  children visited props ++ if tag = js "table" then [⟨visited,.table (props.get "children")⟩] else []

/- What a walk calls at a place. -/
def calls (task : Task) : List Task := match task.place with
  | .node (.string text) => match reference text with
    | some refId => followed numerals chunkMap task.visited refId .node
    | none => []
  | .node (.array items) => match elementTag items with
    | some tag =>
        if tag ∈ skipTags then []
        else if js "$L" <+: tag then componentCalls numerals chunkMap task.visited (tag.drop 2) (propsOf items)
        else elementCalls task.visited tag (propsOf items)
    | none => items.map fun item => ⟨task.visited,.node item⟩
  | .table (.string text) => match reference text with
    | some refId => followed numerals chunkMap task.visited refId .table
    | none => []
  | .table (.array items) =>
      if headed items then match tagOf items with
        | none => []
        | some tag =>
            if js "$L" <+: tag then followed numerals chunkMap task.visited (tag.drop 2) .table
            else if tag = js "tr" then [⟨task.visited,.cells (childrenOf items)⟩]
            else [⟨task.visited,.table (childrenOf items)⟩]
      else items.map fun item => ⟨task.visited,.table item⟩
  | .cells (.string text) => match reference text with
    | some refId => followed numerals chunkMap task.visited refId .cells
    | none => []
  | .cells (.array items) => match elementTag items with
    | some tag =>
        if tag = js "td" ∨ tag = js "th" then [⟨task.visited,.node (childrenOf items)⟩]
        else if js "$L" <+: tag then followed numerals chunkMap task.visited (tag.drop 2) .cells
        else items.map fun item => ⟨task.visited,.cells item⟩
    | none => items.map fun item => ⟨task.visited,.cells item⟩
  | _ => []

/- The three shapes that a walk does not expect: a heading whose children are no string and cannot be made one, a
link whose href is no string, and in a table an element whose tag is no string. -/
def Fault (task : Task) : Prop := match task.place with
  | .node (.array items) => ∃ tag, elementTag items = some tag ∧ tag ∉ skipTags ∧
      if js "$L" <+: tag then tag.drop 2 ∉ task.visited ∧ heading (propsOf items) ∧ string (childrenOf items) = none
      else tag = js "a" ∧ truthy ((propsOf items).get "href") = true ∧ ((propsOf items).get "href").asString = none
  | .table (.array items) => headed items = true ∧ tagOf items = none
  | _ => False

/- A walk comes to such a shape. -/
def Breaks (task : Task) : Prop := Reaches (calls numerals chunkMap) Fault task

/- With so many steps a walk returns with the references it was given, or breaks. -/
def Settled (steps : Nat) (task : Task) : Prop := match task.place with
  | .node value => ∀ ctx, Settles (extractNode numerals chunkMap steps value ctx) task.visited .typeError (Breaks numerals chunkMap task)
  | .table value => ∀ isHeader table, Settles (walkTable numerals chunkMap steps value isHeader table) task.visited .typeError
      (Breaks numerals chunkMap task)
  | .cells value => ∀ cells, Settles (walkCells numerals chunkMap steps value cells) task.visited .typeError
      (Breaks numerals chunkMap task)

end Tasks

variable {numerals : Json.Numerals} {chunkMap : ChunkMap} {visited : List JsString} {bad : Task → Prop}

theorem leaveJoined {refId : JsString} (fresh : refId ∉ visited) : Mapping.leave (Mapping.join visited refId) refId = visited := by
  rw [Mapping.join,if_neg fresh,Mapping.leave,List.filter_append]
  have kept : visited.filter (fun other => other ≠ refId) = visited :=
    List.filter_eq_self.mpr fun other member => decide_eq_true fun same => fresh (same ▸ member)
  rw [kept]
  simp

theorem visitingSettles {α : Type} {walk : Walk α} {refId : JsString} {fails : Prop} (fresh : refId ∉ visited)
    (settles : Settles walk (Mapping.join visited refId) .typeError fails) : Settles (visiting refId walk) visited .typeError fails :=
  settlesWithin (Mapping.join · refId) (Mapping.leave · refId) (leaveJoined fresh) settles

theorem followSettles {α : Type} {walk : JsValue → Walk α} {otherwise : α} {refId : JsString} {go : JsValue → Place}
    (each : ∀ parsed, ⟨Mapping.join visited refId,go parsed⟩ ∈ followed numerals chunkMap visited refId go →
      Settles (walk parsed) (Mapping.join visited refId) .typeError (bad ⟨Mapping.join visited refId,go parsed⟩)) :
    Settles (follow numerals chunkMap refId walk otherwise) visited .typeError
      (∃ called ∈ followed numerals chunkMap visited refId go, bad called) := by
  refine settlesRead ?_
  unfold followed at each ⊢
  split
  · exact settlesSame (settlesPure otherwise) (by simp)
  · rename_i fresh
    rw [if_neg fresh] at each
    refine visitingSettles fresh ?_
    cases found : getParsedChunk numerals chunkMap refId with
    | none => exact settlesSame (settlesPure otherwise) (by simp)
    | some parsed =>
      rw [found] at each
      exact settlesSame (each parsed List.mem_cons_self) (by simp)

theorem childrenSettles {extract : JsValue → Walk JsString} {props : JsValue} {bad : Task → Prop}
    (each : ⟨visited,.node (props.get "children")⟩ ∈ children visited props →
      Settles (extract (props.get "children")) visited .typeError (bad ⟨visited,.node (props.get "children")⟩)) :
    Settles (readChildren extract props) visited .typeError (∃ called ∈ children visited props, bad called) := by
  unfold readChildren
  unfold children at each ⊢
  refine settlesSame (settlesWhen fun given => each (by rw [if_pos given]; exact List.mem_cons_self)) ?_
  split
  · simp_all
  · simp_all

theorem componentSettles {extract : JsValue → Walk JsString} {refId : JsString} {props : JsValue}
    (each : ∀ value, ⟨Mapping.join visited refId,.node value⟩ ∈ componentCalls numerals chunkMap visited refId props →
      Settles (extract value) (Mapping.join visited refId) .typeError (bad ⟨Mapping.join visited refId,.node value⟩)) :
    Settles (component numerals chunkMap extract refId props) visited .typeError
      ((refId ∉ visited ∧ heading props ∧ string (props.get "children") = none) ∨
        ∃ called ∈ componentCalls numerals chunkMap visited refId props, bad called) := by
  refine settlesRead ?_
  unfold componentCalls at each ⊢
  by_cases seen : refId ∈ visited
  · rw [if_pos seen,if_pos (.inl seen)]
    exact settlesSame (settlesPure []) (by simp [seen])
  rw [if_neg seen]
  by_cases titled : heading props
  · have given : (truthy (props.get "baseId") && truthy (props.get "children")) = true := Bool.and_eq_true_iff.mpr titled
    rw [if_pos given,if_pos (.inr titled)]
    cases text : string (props.get "children") with
    | none => exact settlesSame settlesThrow (by simp [seen,titled])
    | some text => exact settlesSame (settlesPure _) (by simp)
  · have missing : ¬(truthy (props.get "baseId") && truthy (props.get "children")) = true := fun given => titled (Bool.and_eq_true_iff.mp given)
    have neither : ¬(refId ∈ visited ∨ heading props) := not_or.mpr ⟨seen,titled⟩
    rw [if_neg missing]
    rw [if_neg neither] at each ⊢
    refine visitingSettles seen ?_
    cases found : getParsedChunk numerals chunkMap refId with
    | some parsed =>
      rw [found] at each
      exact settlesSame (each parsed List.mem_cons_self) (by simp [titled])
    | none =>
      rw [found] at each
      exact settlesSame (childrenSettles (each _)) (by simp [titled])

theorem linkSettles (content : JsString) (href : JsValue) :
    Settles (linked content href) visited .typeError (truthy href = true ∧ href.asString = none) := by
  unfold linked
  by_cases given : truthy href = true
  · rw [given]
    cases href with
    | string href => exact settlesSame (settlesPure _) (by simp [JsValue.asString])
    | _ => exact settlesSame settlesThrow (by simp [JsValue.asString])
  · rw [Bool.not_eq_true] at given
    rw [given]
    exact settlesSame (settlesPure content) (by simp)

theorem elementSettles {extract : JsValue → Ctx → Walk JsString} {table : JsValue → Walk JsString} {tag : JsString} {props : JsValue} {ctx : Ctx}
    (text : ⟨visited,.node (props.get "children")⟩ ∈ elementCalls visited tag props →
      ∀ ctx, Settles (extract (props.get "children") ctx) visited .typeError (bad ⟨visited,.node (props.get "children")⟩))
    (rows : ⟨visited,.table (props.get "children")⟩ ∈ elementCalls visited tag props →
      Settles (table (props.get "children")) visited .typeError (bad ⟨visited,.table (props.get "children")⟩)) :
    Settles (element extract table tag props ctx) visited .typeError
      ((tag = js "a" ∧ truthy (props.get "href") = true ∧ (props.get "href").asString = none) ∨
        ∃ called ∈ elementCalls visited tag props, bad called) := by
  have read (ctx : Ctx) : Settles (readChildren (extract · ctx) props) visited .typeError
      (∃ called ∈ children visited props, bad called) :=
    childrenSettles fun member => text (List.mem_append_left _ member) ctx
  have code : js "code" ≠ js "a" ∧ js "code" ≠ js "table" := by decide
  have pre : js "pre" ≠ js "a" ∧ js "pre" ≠ js "table" := by decide
  have table_ : js "table" ≠ js "a" := by decide
  unfold element
  by_cases isCode : tag = js "code"
  · subst isCode
    refine settlesSame (settlesThen (read ctx) fun content => (?_ : Settles _ visited _ (∃ called ∈ children visited props, bad called))) ?_
    · rw [if_pos rfl]
      exact settlesPlain (read _) fun codeContent => settlesPure _
    · simp [elementCalls,code.1,code.2]
  by_cases isPre : tag = js "pre"
  · subst isPre
    refine settlesSame (settlesThen (read ctx) fun content => (?_ : Settles _ visited _ (∃ called ∈ children visited props, bad called))) ?_
    · rw [if_neg isCode,if_pos rfl]
      exact settlesPlain (read _) fun preContent => settlesPure _
    · simp [elementCalls,pre.1,pre.2]
  by_cases isTable : tag = js "table"
  · subst isTable
    refine settlesSame (settlesThen (read ctx) fun content => (?_ : Settles _ visited _ (bad ⟨visited,.table (props.get "children")⟩))) ?_
    · rw [if_neg isCode,if_neg isPre,if_pos rfl]
      exact settlesPlain (rows (List.mem_append_right _ (by simp))) fun text => settlesPure _
    · simp [elementCalls,table_,or_and_right,exists_or]
  by_cases isLink : tag = js "a"
  · subst isLink
    refine settlesSame (settlesThen (read ctx) fun content => (?_ : Settles _ visited _ (truthy (props.get "href") = true ∧ (props.get "href").asString = none))) ?_
    · rw [if_neg isCode,if_neg isPre,if_neg isTable,if_pos rfl]
      exact linkSettles content _
    · simp [elementCalls,isTable,or_comm]
  · refine settlesSame (settlesPlain (read ctx) fun content => ?_) ?_
    · rw [if_neg isCode,if_neg isPre,if_neg isTable,if_neg isLink]
      exact settlesPure _
    · simp [elementCalls,isTable,isLink]

theorem breaksStep {task : Task} : Breaks numerals chunkMap task ↔
    Fault task ∨ ∃ called ∈ calls numerals chunkMap task, Breaks numerals chunkMap called := reachesStep

theorem nodeSettled {steps : Nat} {value : JsValue}
    (each : ∀ called ∈ calls numerals chunkMap ⟨visited,.node value⟩, Settled numerals chunkMap steps called) :
    Settled numerals chunkMap (steps + 1) ⟨visited,.node value⟩ := by
  intro ctx
  refine settlesSame ?_ breaksStep.symm
  rw [extractNode]
  unfold nodeStep calls Fault
  unfold calls at each
  cases value with
  | string text =>
    dsimp only at each ⊢
    cases found : reference text with
    | none => exact settlesSame (settlesPure _) (by simp)
    | some refId =>
      rw [found] at each
      exact settlesSame (followSettles fun parsed member => each _ member ctx) (by simp)
  | array items =>
    dsimp only at each ⊢
    cases found : elementTag items with
    | none =>
      rw [found] at each
      have walked := settlesMap fun item member => each _ (List.mem_map_of_mem member) ctx
      refine settlesSame (settlesPlain walked fun texts => settlesPure _) ?_
      simp
    | some tag =>
      rw [found] at each
      dsimp only at each ⊢
      by_cases skipped : tag ∈ skipTags
      · rw [if_pos skipped,if_pos skipped]
        exact settlesSame (settlesPure []) (by simp [skipped])
      rw [if_neg skipped] at each ⊢
      rw [if_neg skipped]
      by_cases names : js "$L" <+: tag
      · rw [if_pos names] at each ⊢
        rw [if_pos names]
        refine settlesSame (componentSettles fun value member => each _ member ctx) ?_
        simp [skipped,names,childrenOf]
      · rw [if_neg names] at each ⊢
        rw [if_neg names]
        refine settlesSame (elementSettles (fun member => each _ member) fun member => ?_) ?_
        · exact settlesPlain (each _ member false ⟨[],0⟩) fun table => settlesPure _
        · simp [skipped,names]
  | _ => exact settlesSame (settlesPure _) (by simp)

theorem tableSettled {steps : Nat} {value : JsValue}
    (each : ∀ called ∈ calls numerals chunkMap ⟨visited,.table value⟩, Settled numerals chunkMap steps called) :
    Settled numerals chunkMap (steps + 1) ⟨visited,.table value⟩ := by
  intro isHeader table
  refine settlesSame ?_ breaksStep.symm
  rw [walkTable]
  unfold tableStep calls Fault
  unfold calls at each
  cases value with
  | string text =>
    dsimp only at each ⊢
    cases found : reference text with
    | none => exact settlesSame (settlesPure _) (by simp)
    | some refId =>
      rw [found] at each
      exact settlesSame (followSettles fun parsed member => each _ member isHeader table) (by simp)
  | array items =>
    dsimp only at each ⊢
    by_cases first : headed items = true
    · rw [if_pos first] at each ⊢
      rw [if_pos first]
      cases found : tagOf items with
      | none => exact settlesSame settlesThrow (by simp [first])
      | some tag =>
        rw [found] at each
        dsimp only at each ⊢
        by_cases names : js "$L" <+: tag
        · rw [if_pos names] at each ⊢
          rw [if_pos names]
          exact settlesSame (followSettles fun parsed member => each _ member isHeader table) (by simp)
        rw [if_neg names] at each ⊢
        rw [if_neg names]
        by_cases isRow : tag = js "tr"
        · rw [if_pos isRow] at each
          have other : js "tr" ≠ js "thead" ∧ js "tr" ≠ js "tbody" := by decide
          rw [if_neg (isRow ▸ other.1),if_neg (isRow ▸ other.2),if_pos isRow,if_pos isRow]
          refine settlesSame (settlesPlain (each _ List.mem_cons_self []) fun row => settlesPure _) ?_
          simp
        · rw [if_neg isRow] at each ⊢
          rw [if_neg isRow]
          have inner (isHeader : Bool) := each _ List.mem_cons_self isHeader table
          split
          · exact settlesSame (inner true) (by simp)
          split
          · exact settlesSame (inner false) (by simp)
          · exact settlesSame (inner isHeader) (by simp)
    · rw [if_neg first] at each ⊢
      rw [if_neg first]
      have walked := settlesFold (fun item member table => each _ (List.mem_map_of_mem member) isHeader table) table
      exact settlesSame walked (by simp [first])
  | _ => exact settlesSame (settlesPure _) (by simp)

theorem cellsSettled {steps : Nat} {value : JsValue}
    (each : ∀ called ∈ calls numerals chunkMap ⟨visited,.cells value⟩, Settled numerals chunkMap steps called) :
    Settled numerals chunkMap (steps + 1) ⟨visited,.cells value⟩ := by
  intro cells
  refine settlesSame ?_ breaksStep.symm
  rw [walkCells]
  unfold cellsStep calls Fault
  unfold calls at each
  cases value with
  | string text =>
    dsimp only at each ⊢
    cases found : reference text with
    | none => exact settlesSame (settlesPure _) (by simp)
    | some refId =>
      rw [found] at each
      exact settlesSame (followSettles fun parsed member => each _ member cells) (by simp)
  | array items =>
    dsimp only at each ⊢
    have walked (every : ∀ item ∈ items, Settled numerals chunkMap steps ⟨visited,.cells item⟩) :=
      settlesFold (fun item member cells => every item member cells) cells
    cases found : elementTag items with
    | none =>
      rw [found] at each
      exact settlesSame (walked fun item member => each _ (List.mem_map_of_mem member)) (by simp)
    | some tag =>
      rw [found] at each
      dsimp only at each ⊢
      by_cases cell : tag = js "td" ∨ tag = js "th"
      · rw [if_pos cell] at each ⊢
        rw [if_pos cell]
        refine settlesSame (settlesPlain (each _ List.mem_cons_self _) fun text => settlesPure _) ?_
        simp
      rw [if_neg cell] at each ⊢
      rw [if_neg cell]
      by_cases names : js "$L" <+: tag
      · rw [if_pos names] at each ⊢
        rw [if_pos names]
        exact settlesSame (followSettles fun parsed member => each _ member cells) (by simp)
      · rw [if_neg names] at each ⊢
        rw [if_neg names]
        exact settlesSame (walked fun item member => each _ (List.mem_map_of_mem member)) (by simp)
  | _ => exact settlesSame (settlesPure _) (by simp)

theorem settledStep (steps : Nat) (task : Task) (each : ∀ called ∈ calls numerals chunkMap task, Settled numerals chunkMap steps called) :
    Settled numerals chunkMap (steps + 1) task := by
  obtain ⟨visited,place⟩ := task
  cases place with
  | node value => exact nodeSettled each
  | table value => exact tableSettled each
  | cells value => exact cellsSettled each

theorem weightMember {item : JsValue} {items : List JsValue} (member : item ∈ items) : weight item ≤ weightItems items := by
  induction items with
  | nil => cases member
  | cons first rest ih =>
    rw [weightItems]
    rcases List.mem_cons.mp member with rfl | later
    · exact Nat.le_add_right _ _
    · have := ih later
      omega

theorem weightLookup {fields : List (JsString × JsValue)} {key : JsString} {content : JsValue} (found : fields.lookup key = some content) :
    weight content ≤ weightFields fields := by
  induction fields with
  | nil => cases found
  | cons field rest ih =>
    obtain ⟨name,value⟩ := field
    rw [weightFields]
    rw [List.lookup_cons] at found
    split at found
    · rw [← Option.some.inj found]
      exact Nat.le_add_right _ _
    · have := ih found
      omega

theorem weightGet (value : JsValue) (key : String) : weight (value.get key) ≤ weight value := by
  unfold JsValue.get
  split
  · rename_i fields
    cases found : fields.lookup (js key) with
    | none => exact Nat.zero_le _
    | some content =>
      have := weightLookup found
      rw [weight,Option.getD_some]
      omega
  · exact Nat.zero_le _

/- What the props of an element hold weighs less than the element. -/
theorem weightProps (items : List JsValue) (key : String) : weight ((propsOf items).get key) < weight (.array items) := by
  rw [weight,Nat.lt_succ_iff]
  unfold propsOf
  dsimp only
  split
  · refine Nat.le_trans (weightGet _ _) ?_
    cases found : items[3]? with
    | none => exact Nat.zero_le _
    | some given => exact weightMember (List.mem_of_getElem? found)
  · exact Nat.zero_le _

theorem parsedKey {refId : JsString} {parsed : JsValue} (found : getParsedChunk numerals chunkMap refId = some parsed) :
    refId ∈ chunkMap.map Prod.fst := by
  by_contra absent
  rw [getParsedChunk,Mapping.lookNone.mpr absent] at found
  cases found

theorem parsedHeaviest {refId : JsString} {parsed : JsValue} (found : getParsedChunk numerals chunkMap refId = some parsed) :
    weight parsed ≤ heaviest numerals chunkMap := by
  obtain ⟨chunk,member,rfl⟩ := List.mem_map.mp (parsedKey found)
  have among : weight parsed ∈ (parsedChunks numerals chunkMap).map weight :=
    List.mem_map_of_mem (List.mem_filterMap.mpr ⟨chunk,member,found⟩)
  exact List.le_max_of_le' 0 among (Nat.le_refl _)

/- How many chunks are not being followed. -/
def unvisited (chunkMap : ChunkMap) (visited : List JsString) : Nat := chunkMap.countP fun chunk => chunk.1 ∉ visited

theorem unvisitedJoin (chunkMap : ChunkMap) (visited : List JsString) (refId : JsString) :
    unvisited chunkMap (Mapping.join visited refId) ≤ unvisited chunkMap visited := by
  refine List.countP_mono_left fun chunk _ outside => ?_
  have outside := of_decide_eq_true outside
  refine decide_eq_true fun inside => outside ?_
  unfold Mapping.join
  split
  · exact inside
  · exact List.mem_append_left _ inside

theorem unvisitedLess {refId : JsString} (fresh : refId ∉ visited) (there : refId ∈ chunkMap.map Prod.fst) :
    unvisited chunkMap (Mapping.join visited refId) < unvisited chunkMap visited := by
  induction chunkMap with
  | nil => cases there
  | cons chunk rest ih =>
    have tail := unvisitedJoin rest visited refId
    unfold unvisited at *
    rw [List.countP_cons,List.countP_cons]
    by_cases here : chunk.1 = refId
    · have inside : chunk.1 ∈ Mapping.join visited refId := by simp [Mapping.join,fresh,here]
      have outside : chunk.1 ∉ visited := here ▸ fresh
      rw [if_neg (by simpa using inside),if_pos (by simpa using outside)]
      omega
    · have same : chunk.1 ∈ Mapping.join visited refId ↔ chunk.1 ∈ visited := by simp [Mapping.join,fresh,here]
      have later := ih ((List.mem_cons.mp there).resolve_left fun same => here same.symm)
      simp only [same]
      omega

/- References first, then what is left of the element. -/
def measure (numerals : Json.Numerals) (chunkMap : ChunkMap) (task : Task) : Nat :=
  unvisited chunkMap task.visited * (heaviest numerals chunkMap + 1) + weight task.place.value

theorem measureWithin {place inner : Place} (less : weight inner.value < weight place.value) :
    measure numerals chunkMap ⟨visited,inner⟩ < measure numerals chunkMap ⟨visited,place⟩ := Nat.add_lt_add_left less _

theorem measureJoined {refId : JsString} {place inner : Place} (less : weight inner.value < weight place.value) :
    measure numerals chunkMap ⟨Mapping.join visited refId,inner⟩ < measure numerals chunkMap ⟨visited,place⟩ :=
  Nat.add_lt_add_of_le_of_lt (Nat.mul_le_mul_right _ (unvisitedJoin chunkMap visited refId)) less

theorem measureFollowed {refId : JsString} {parsed : JsValue} {place inner : Place} (fresh : refId ∉ visited)
    (found : getParsedChunk numerals chunkMap refId = some parsed) (same : inner.value = parsed) :
    measure numerals chunkMap ⟨Mapping.join visited refId,inner⟩ < measure numerals chunkMap ⟨visited,place⟩ := by
  have less := unvisitedLess fresh (parsedKey found)
  have light := parsedHeaviest found
  have more := Nat.mul_le_mul_right (heaviest numerals chunkMap + 1) (Nat.succ_le_of_lt less)
  rw [Nat.succ_mul] at more
  simp only [measure,same]
  omega

theorem followedLess {refId : JsString} {go : JsValue → Place} (plain : ∀ value, (go value).value = value) {place : Place} {called : Task}
    (member : called ∈ followed numerals chunkMap visited refId go) :
    measure numerals chunkMap called < measure numerals chunkMap ⟨visited,place⟩ := by
  unfold followed at member
  split at member
  · cases member
  · rename_i fresh
    split at member
    · rename_i parsed found
      rw [List.mem_singleton.mp member]
      exact measureFollowed fresh found (plain parsed)
    · cases member

theorem childrenCalled {props : JsValue} {called : Task} (member : called ∈ children visited props) :
    called = ⟨visited,.node (props.get "children")⟩ := by
  unfold children at member
  split at member
  · exact List.mem_singleton.mp member
  · cases member

theorem componentLess {refId : JsString} {items : List JsValue} {called : Task}
    (member : called ∈ componentCalls numerals chunkMap visited refId (propsOf items)) :
    measure numerals chunkMap called < measure numerals chunkMap ⟨visited,.node (.array items)⟩ := by
  unfold componentCalls at member
  split at member
  · cases member
  · rename_i fresh
    split at member
    · rename_i parsed found
      rw [List.mem_singleton.mp member]
      exact measureFollowed (fun seen => fresh (.inl seen)) found rfl
    · rw [childrenCalled member]
      exact measureJoined (weightProps items _)

theorem elementLess {tag : JsString} {items : List JsValue} {called : Task} (member : called ∈ elementCalls visited tag (propsOf items)) :
    measure numerals chunkMap called < measure numerals chunkMap ⟨visited,.node (.array items)⟩ := by
  rcases List.mem_append.mp member with text | rows
  · rw [childrenCalled text]
    exact measureWithin (weightProps items _)
  · split at rows
    · rw [List.mem_singleton.mp rows]
      exact measureWithin (weightProps items _)
    · cases rows

theorem itemLess {items : List JsValue} {go : JsValue → Place} (plain : ∀ value, (go value).value = value) {called : Task}
    (member : called ∈ items.map fun item => (⟨visited,go item⟩ : Task)) :
    measure numerals chunkMap called < measure numerals chunkMap ⟨visited,go (.array items)⟩ := by
  obtain ⟨item,inside,rfl⟩ := List.mem_map.mp member
  refine measureWithin ?_
  rw [plain,plain,weight]
  exact Nat.lt_succ_of_le (weightMember inside)

theorem callsLess (task called : Task) (member : called ∈ calls numerals chunkMap task) :
    measure numerals chunkMap called < measure numerals chunkMap task := by
  obtain ⟨visited,place⟩ := task
  unfold calls at member
  dsimp only at member
  have plain : (∀ value, (Place.node value).value = value) ∧ (∀ value, (Place.table value).value = value) ∧
      ∀ value, (Place.cells value).value = value := ⟨fun _ => rfl,fun _ => rfl,fun _ => rfl⟩
  split at member
  · split at member
    · exact followedLess plain.1 member
    · cases member
  · split at member
    · split at member
      · cases member
      split at member
      · exact componentLess member
      · exact elementLess member
    · exact itemLess plain.1 member
  · split at member
    · exact followedLess plain.2.1 member
    · cases member
  · rename_i items
    split at member
    · split at member
      · cases member
      split at member
      · exact followedLess plain.2.1 member
      split at member
      · rw [List.mem_singleton.mp member]
        exact measureWithin (weightProps items _)
      · rw [List.mem_singleton.mp member]
        exact measureWithin (weightProps items _)
    · exact itemLess plain.2.1 member
  · split at member
    · exact followedLess plain.2.2 member
    · cases member
  · rename_i items
    split at member
    · split at member
      · rw [List.mem_singleton.mp member]
        exact measureWithin (weightProps items _)
      split at member
      · exact followedLess plain.2.2 member
      · exact itemLess plain.2.2 member
    · exact itemLess plain.2.2 member
  · cases member

/- The steps that extractRSCContent is given are enough for every chunk. -/
theorem chunkSettles {id : JsString} {parsed : JsValue} (found : getParsedChunk numerals chunkMap id = some parsed) :
    Settles (extractChunk numerals chunkMap parsed) [] .typeError (Breaks numerals chunkMap ⟨[],.node parsed⟩) := by
  have enough : measure numerals chunkMap ⟨[],.node parsed⟩ < nesting numerals chunkMap := by
    have light := parsedHeaviest found
    have few : unvisited chunkMap [] ≤ chunkMap.length := List.countP_le_length
    have more := Nat.mul_le_mul_right (heaviest numerals chunkMap + 1) few
    rw [nesting,Nat.succ_mul]
    simp only [measure,Place.value]
    omega
  exact measured (measure numerals chunkMap) callsLess settledStep _ ⟨[],.node parsed⟩ enough ⟨false,false⟩

/- A chunk whose walk breaks. -/
def Broken (numerals : Json.Numerals) (chunkMap : ChunkMap) (id : JsString) : Prop :=
  ∃ parsed, getParsedChunk numerals chunkMap id = some parsed ∧ Breaks numerals chunkMap ⟨[],.node parsed⟩

/- The main chunk, if there is one, gives too little text. -/
def Short (numerals : Json.Numerals) (chunkMap : ChunkMap) : Prop := ∀ mainChunk content,
  getParsedChunk numerals chunkMap (js "23") = some mainChunk → extractChunk numerals chunkMap mainChunk [] = .ok (content,[]) →
    (trim content).length ≤ rscMinExtractedContent

theorem otherSettles (numerals : Json.Numerals) (chunkMap : ChunkMap) (contentParts : List ContentPart) (chunk : JsString × JsString) :
    Settles (otherPart numerals chunkMap contentParts chunk) [] .typeError (chunk.1 ≠ js "23" ∧ Broken numerals chunkMap chunk.1) := by
  unfold otherPart Broken
  by_cases isMain : chunk.1 = js "23"
  · rw [if_pos isMain]
    exact settlesSame (settlesPure _) (by simp [isMain])
  · rw [if_neg isMain]
    cases found : getParsedChunk numerals chunkMap chunk.1 with
    | none => exact settlesSame (settlesPure _) (by simp)
    | some parsed =>
      have walked := settlesPlain (chunkSettles found) fun text => settlesPure (if 50 < (trim text).length ∧
        !includes (js "page was not found") text ∧ !includes (js "404") text then contentParts ++ [⟨orderOf chunk.1,trim text⟩] else contentParts)
      exact settlesSame walked (by simp [isMain])

theorem fallbackSettles (title : JsString) :
    Settles (fallback numerals chunkMap title) [] .typeError (∃ id, id ≠ js "23" ∧ Broken numerals chunkMap id) := by
  have folded := settlesFold (fun chunk (_ : chunk ∈ chunkMap) parts => otherSettles numerals chunkMap parts chunk) []
  refine settlesSame (settlesPlain folded fun parts => settlesPure _) ?_
  constructor
  · rintro ⟨chunk,_,bad⟩
    exact ⟨chunk.1,bad⟩
  · rintro ⟨id,other,parsed,found,bad⟩
    obtain ⟨chunk,member,rfl⟩ := List.mem_map.mp (parsedKey found)
    exact ⟨chunk,member,other,parsed,found,bad⟩

theorem pageSettles (numerals : Json.Numerals) (chunkMap : ChunkMap) (title : JsString) : Settles (extractPage numerals chunkMap title) [] .typeError
    (∃ id, Broken numerals chunkMap id ∧ (id = js "23" ∨ Short numerals chunkMap)) := by
  unfold extractPage
  cases main : getParsedChunk numerals chunkMap (js "23") with
  | none =>
    have short : Short numerals chunkMap := fun _ _ found => nomatch main.symm.trans found
    refine settlesSame (fallbackSettles title) (exists_congr fun id => ?_)
    constructor
    · exact fun ⟨_,bad⟩ => ⟨bad,.inr short⟩
    · rintro ⟨bad,_⟩
      refine ⟨fun same => ?_,bad⟩
      obtain ⟨parsed,found,_⟩ := bad
      rw [same,main] at found
      cases found
  | some mainChunk =>
    have rest (content : JsString) : Settles (if rscMinExtractedContent < (trim content).length then
        pure (some ⟨title,trim (squeeze 0 content)⟩) else fallback numerals chunkMap title) [] .typeError
        (¬rscMinExtractedContent < (trim content).length ∧ ∃ id, id ≠ js "23" ∧ Broken numerals chunkMap id) := by
      split
      · rename_i long
        exact settlesSame (settlesPure _) (by simp [long])
      · rename_i short
        exact settlesSame (fallbackSettles title) (by simp [short])
    refine settlesSame (settlesBind (chunkSettles main) fun content _ => rest content) ?_
    constructor
    · rintro (bad | ⟨content,read,short,id,_,bad⟩)
      · exact ⟨js "23",⟨mainChunk,main,bad⟩,.inl rfl⟩
      · refine ⟨id,bad,.inr fun other text found again => ?_⟩
        obtain rfl : mainChunk = other := Option.some.inj (main.symm.trans found)
        obtain rfl : content = text := (Prod.mk.inj (Except.ok.inj (read.symm.trans again))).1
        exact Nat.le_of_not_lt short
    · rintro ⟨id,bad,walked⟩
      rcases chunkSettles main with ⟨mainBad,_⟩ | ⟨mainFine,content,read⟩
      · exact .inl mainBad
      · have other : id ≠ js "23" := by
          rintro rfl
          obtain ⟨parsed,found,breaks⟩ := bad
          obtain rfl : mainChunk = parsed := Option.some.inj (main.symm.trans found)
          exact mainFine breaks
        have short := walked.resolve_left other mainChunk content main read
        exact .inr ⟨content,read,Nat.not_lt.mpr short,id,other,bad⟩

theorem pushesNone {skip : Nat} {html : JsString} (missing : Scanning.indexOf (js "self.__next_f.push") html = none) : pushes skip html = [] := by
  induction html generalizing skip with
  | nil => rfl
  | cons u rest ih =>
    have nowhere := Scanning.indexMissing missing
    have later : Scanning.indexOf (js "self.__next_f.push") rest = none := by
      rw [Scanning.indexOf] at missing
      split at missing
      · cases missing
      · exact Option.map_eq_none_iff.mp missing
    cases skip with
    | succ skip => exact ih later
    | zero =>
      have inner : js "self.__next_f.push" <+: pushOpening.drop 8 := by decide
      have unpushed : pushAt (u :: rest) = none := by
        rw [pushAt,behind,if_neg]
        · rfl
        · intro starts
          exact nowhere 8 (inner.trans (starts.drop 8))
      rw [pushes,unpushed]
      exact ih later

theorem chunksNone {html : JsString} (missing : includes (js "self.__next_f.push") html = false) : chunksOf numerals html = [] := by
  rw [chunksOf,pushesNone (Option.not_isSome_iff_eq_none.mp (Bool.not_eq_true _ ▸ missing))]
  rfl

/- One push whose chunk 23 is the link ["$","a",null,{"href":5}]. -/
def linkPage : JsString := pushOpening ++ js "23:[\\\"$\\\",\\\"a\\\",null,\x7b\\\"href\\\":5\x7d]" ++ pushClosing

end Northstar.Web.Rsc
