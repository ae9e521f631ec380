import Northstar.Encoding
import Northstar.Agent.Recording

/-! The native arguments an intent compiles to (agent-gather-intents.ts): they tell every field of it. -/
namespace Northstar.Agent.Intents
open State Recording

def nativeFields : GatherIntent → List (String × Option JsValue)
  | .webSearch query limit => [("query",some (.string query)),("limit",limit.map whole)]
  | .researchSearch query source yearFrom yearTo limit => [("action",some (.string (js "academic"))),("query",some (.string query)),
      ("source",source.map .string),("limit",limit.map whole),("yearFrom",yearFrom.map whole),("yearTo",yearTo.map whole)]
  | .githubRepo query => [("action",some (.string (js "search_repos"))),("query",some (.string query))]
  | .githubCode query repoHint => [("action",some (.string (js "search"))),("query",some (.string query)),
      ("repository",repoHint.map .string)]
  | .githubIssues repoHint state labels number => [("action",some (.string (js "issues"))),("repository",some (.string repoHint)),
      ("state",state.map (nameOf githubIssueStates)),("labels",labels.map fun labels => .array (labels.map .string)),
      ("number",number.map whole)]
  | .githubFiles query repoHint => [("action",some (.string (js "file"))),("path",some (.string query)),
      ("repository",some (.string repoHint))]
  | .socialSearch platform query sort => [("platform",some (nameOf socialPlatforms platform)),("action",some (.string (js "search"))),
      ("query",some (.string query)),("sort",sort.map .string)]
  | .videoTranscript videoHint => [("channel",some (.string (js "youtube"))),("action",some (.string (js "transcript"))),
      (if isHttpUrl videoHint then "url" else "id",some (.string videoHint))]
  | .kgLookup entityType name url id limit => [("action",some (.string (js "enhance"))),
      ("type",some (.string (js (match entityType with | .person => "Person" | .organization => "Organization")))),
      ("name",name.map .string),("url",url.map .string),("id",id.map .string),("maxEntities",limit.map whole)]
  | .webFetch url => [("url",some (.string url))]

def compileIntentArgs (intent : GatherIntent) : JsValue := record (nativeFields intent)

theorem nativeDistinct (intent : GatherIntent) : ((nativeFields intent).map Prod.fst).Nodup := by
  cases intent with
  | videoTranscript hint =>
    simp only [nativeFields]
    split <;> simp
  | _ => simp [nativeFields]

theorem nativeRead {intent : GatherIntent} {key : String} {value : Option JsValue} (member : (key,value) ∈ nativeFields intent) :
    (compileIntentArgs intent).get key = value.getD .undefined := recordGet (nativeDistinct intent) member

/- What tells the kinds of call apart. -/
def callOf (args : JsValue) : Option JsString × Bool × Bool :=
  ((args.get "action").asString,(args.get "platform").asString.isSome,(args.get "query").asString.isSome)

def kindOfCall : GatherIntent → Option JsString × Bool × Bool
  | .webSearch _ _ => (none,false,true)
  | .researchSearch _ _ _ _ _ => (some (js "academic"),false,true)
  | .githubRepo _ => (some (js "search_repos"),false,true)
  | .githubCode _ _ => (some (js "search"),false,true)
  | .githubIssues _ _ _ _ => (some (js "issues"),false,false)
  | .githubFiles _ _ => (some (js "file"),false,false)
  | .socialSearch _ _ _ => (some (js "search"),true,true)
  | .videoTranscript _ => (some (js "transcript"),false,false)
  | .kgLookup _ _ _ _ _ => (some (js "enhance"),false,false)
  | .webFetch _ => (none,false,false)

theorem jsSame {s t : String} : js s = js t ↔ s = t := ⟨textInjective,congrArg js⟩

theorem callTold (intent : GatherIntent) : callOf (compileIntentArgs intent) = kindOfCall intent := by
  have missing (key : String) (none_ : key ∉ (nativeFields intent).map Prod.fst) : (compileIntentArgs intent).get key = .undefined :=
    recordAbsent none_
  unfold callOf
  cases intent with
  | webSearch query limit =>
    rw [missing "action" (by simp [nativeFields]),missing "platform" (by simp [nativeFields]),nativeRead (.head _)]
    rfl
  | researchSearch query source yearFrom yearTo limit =>
    rw [nativeRead (.head _),missing "platform" (by simp [nativeFields]),nativeRead (.tail _ (.head _))]
    rfl
  | githubRepo query =>
    rw [nativeRead (.head _),missing "platform" (by simp [nativeFields]),nativeRead (.tail _ (.head _))]
    rfl
  | githubCode query repoHint =>
    rw [nativeRead (.head _),missing "platform" (by simp [nativeFields]),nativeRead (.tail _ (.head _))]
    rfl
  | githubIssues repoHint state labels number =>
    rw [nativeRead (.head _),missing "platform" (by simp [nativeFields]),missing "query" (by simp [nativeFields])]
    rfl
  | githubFiles query repoHint =>
    rw [nativeRead (.head _),missing "platform" (by simp [nativeFields]),missing "query" (by simp [nativeFields])]
    rfl
  | socialSearch platform query sort =>
    rw [nativeRead (.tail _ (.head _)),nativeRead (.head _),nativeRead (.tail _ (.tail _ (.head _)))]
    rfl
  | videoTranscript hint =>
    have platform : "platform" ∉ (nativeFields (.videoTranscript hint)).map Prod.fst := by
      simp only [nativeFields]
      split <;> simp
    have query : "query" ∉ (nativeFields (.videoTranscript hint)).map Prod.fst := by
      simp only [nativeFields]
      split <;> simp
    rw [nativeRead (.tail _ (.head _)),missing "platform" platform,missing "query" query]
    rfl
  | kgLookup entityType name url id limit =>
    rw [nativeRead (.head _),missing "platform" (by simp [nativeFields]),missing "query" (by simp [nativeFields])]
    rfl
  | webFetch url =>
    rw [missing "action" (by simp [nativeFields]),missing "platform" (by simp [nativeFields]),missing "query" (by simp [nativeFields])]
    rfl

theorem hintUrl (hint : JsString) : (compileIntentArgs (.videoTranscript hint)).get "url" =
    if isHttpUrl hint then .string hint else .undefined := by
  rw [compileIntentArgs,recordField,nativeFields]
  cases isHttpUrl hint <;> simp [List.lookup]

theorem hintId (hint : JsString) : (compileIntentArgs (.videoTranscript hint)).get "id" =
    if isHttpUrl hint then .undefined else .string hint := by
  rw [compileIntentArgs,recordField,nativeFields]
  cases isHttpUrl hint <;> simp [List.lookup]

section
variable {α : Type} {wrap : α → JsValue}

theorem wrappedSame (injective : Function.Injective wrap) (some_ : ∀ x, wrap x ≠ .undefined) {a b : Option α}
    (same : (a.map wrap).getD .undefined = (b.map wrap).getD .undefined) : a = b := by
  cases a with
  | none => cases b with
    | none => rfl
    | some y => exact absurd same.symm (some_ y)
  | some x => cases b with
    | none => exact absurd same (some_ x)
    | some y => exact congrArg some (injective same)

end

theorem stringsSame {a b : Option JsString} (same : (a.map JsValue.string).getD .undefined = (b.map JsValue.string).getD .undefined) :
    a = b := wrappedSame (fun _ _ => JsValue.string.inj) nofun same

theorem wholesSame {a b : Option Nat} (same : (a.map whole).getD .undefined = (b.map whole).getD .undefined) : a = b := by
  refine wrappedSame (fun m n same => ?_) nofun same
  exact Int.ofNat.inj (Number.int.inj (JsValue.number.inj same))

theorem statesSame {a b : Option IssueState} (same : (a.map (nameOf githubIssueStates)).getD .undefined =
    (b.map (nameOf githubIssueStates)).getD .undefined) : a = b := by
  refine wrappedSame (fun x y same => ?_) nofun same
  have text := JsValue.string.inj same
  revert text
  cases x <;> cases y <;> decide

theorem labelsSame {a b : Option (List JsString)} (same : (a.map fun labels => JsValue.array (labels.map .string)).getD .undefined =
    (b.map fun labels => JsValue.array (labels.map .string)).getD .undefined) : a = b := by
  refine wrappedSame (fun x y same => ?_) nofun same
  exact List.map_injective_iff.mpr (fun _ _ => JsValue.string.inj) (JsValue.array.inj same)

/- Compiled arguments are of one intent only. -/
theorem compiledApart {a b : GatherIntent} (same : compileIntentArgs a = compileIntentArgs b) : a = b := by
  have kind : kindOfCall a = kindOfCall b := by rw [← callTold a,← callTold b,same]
  have shared {key : String} {x y : Option JsValue} (left : (key,x) ∈ nativeFields a) (right : (key,y) ∈ nativeFields b) :
      x.getD .undefined = y.getD .undefined := by
    rw [← nativeRead left,← nativeRead right,same]
  cases a with
  | webSearch query limit => cases b with
    | webSearch query' limit' =>
      have query := JsValue.string.inj (shared (.head _) (.head _))
      have limit := wholesSame (shared (.tail _ (.head _)) (.tail _ (.head _)))
      rw [query,limit]
    | _ => simp [kindOfCall] at kind
  | researchSearch query source yearFrom yearTo limit => cases b with
    | researchSearch query' source' yearFrom' yearTo' limit' =>
      have query := JsValue.string.inj (shared (.tail _ (.head _)) (.tail _ (.head _)))
      have source := stringsSame (shared (.tail _ (.tail _ (.head _))) (.tail _ (.tail _ (.head _))))
      have limit := wholesSame (shared (.tail _ (.tail _ (.tail _ (.head _)))) (.tail _ (.tail _ (.tail _ (.head _)))))
      have yearFrom := wholesSame (shared (.tail _ (.tail _ (.tail _ (.tail _ (.head _))))) (.tail _ (.tail _ (.tail _ (.tail _ (.head _))))))
      have yearTo := wholesSame (shared (.tail _ (.tail _ (.tail _ (.tail _ (.tail _ (.head _)))))) (.tail _ (.tail _ (.tail _ (.tail _ (.tail _ (.head _)))))))
      rw [query,source,limit,yearFrom,yearTo]
    | _ => simp [kindOfCall,jsSame] at kind
  | githubRepo query => cases b with
    | githubRepo query' => rw [JsValue.string.inj (shared (.tail _ (.head _)) (.tail _ (.head _)))]
    | _ => simp [kindOfCall,jsSame] at kind
  | githubCode query repoHint => cases b with
    | githubCode query' repoHint' =>
      have query := JsValue.string.inj (shared (.tail _ (.head _)) (.tail _ (.head _)))
      have repoHint := stringsSame (shared (.tail _ (.tail _ (.head _))) (.tail _ (.tail _ (.head _))))
      rw [query,repoHint]
    | _ => simp [kindOfCall,jsSame] at kind
  | githubIssues repoHint state labels number => cases b with
    | githubIssues repoHint' state' labels' number' =>
      have repoHint := JsValue.string.inj (shared (.tail _ (.head _)) (.tail _ (.head _)))
      have state := statesSame (shared (.tail _ (.tail _ (.head _))) (.tail _ (.tail _ (.head _))))
      have labels := labelsSame (shared (.tail _ (.tail _ (.tail _ (.head _)))) (.tail _ (.tail _ (.tail _ (.head _)))))
      have number := wholesSame (shared (.tail _ (.tail _ (.tail _ (.tail _ (.head _))))) (.tail _ (.tail _ (.tail _ (.tail _ (.head _))))))
      rw [repoHint,state,labels,number]
    | _ => simp [kindOfCall,jsSame] at kind
  | githubFiles query repoHint => cases b with
    | githubFiles query' repoHint' =>
      have query := JsValue.string.inj (shared (.tail _ (.head _)) (.tail _ (.head _)))
      have repoHint := JsValue.string.inj (shared (.tail _ (.tail _ (.head _))) (.tail _ (.tail _ (.head _))))
      rw [query,repoHint]
    | _ => simp [kindOfCall,jsSame] at kind
  | socialSearch platform query sort => cases b with
    | socialSearch platform' query' sort' =>
      have platform : platform = platform' := by
        have text := JsValue.string.inj (shared (.head _) (.head _))
        revert text
        cases platform <;> cases platform' <;> decide
      have query := JsValue.string.inj (shared (.tail _ (.tail _ (.head _))) (.tail _ (.tail _ (.head _))))
      have sort := stringsSame (shared (.tail _ (.tail _ (.tail _ (.head _)))) (.tail _ (.tail _ (.tail _ (.head _)))))
      rw [platform,query,sort]
    | _ => simp [kindOfCall,jsSame] at kind
  | videoTranscript hint => cases b with
    | videoTranscript hint' =>
      have url := hintUrl hint
      have id := hintId hint
      rw [same,hintUrl hint'] at url
      rw [same,hintId hint'] at id
      cases first : isHttpUrl hint <;> cases second : isHttpUrl hint' <;> simp_all
    | _ => simp [kindOfCall,jsSame] at kind
  | kgLookup entityType name url id limit => cases b with
    | kgLookup entityType' name' url' id' limit' =>
      have entityType : entityType = entityType' := by
        have text := JsValue.string.inj (shared (.tail _ (.head _)) (.tail _ (.head _)))
        revert text
        cases entityType <;> cases entityType' <;> decide
      have name := stringsSame (shared (.tail _ (.tail _ (.head _))) (.tail _ (.tail _ (.head _))))
      have url := stringsSame (shared (.tail _ (.tail _ (.tail _ (.head _)))) (.tail _ (.tail _ (.tail _ (.head _)))))
      have id := stringsSame (shared (.tail _ (.tail _ (.tail _ (.tail _ (.head _))))) (.tail _ (.tail _ (.tail _ (.tail _ (.head _))))))
      have limit := wholesSame (shared (.tail _ (.tail _ (.tail _ (.tail _ (.tail _ (.head _)))))) (.tail _ (.tail _ (.tail _ (.tail _ (.tail _ (.head _)))))))
      rw [entityType,name,url,id,limit]
    | _ => simp [kindOfCall,jsSame] at kind
  | webFetch url => cases b with
    | webFetch url' => rw [JsValue.string.inj (shared (.head _) (.head _))]
    | _ => simp [kindOfCall] at kind

end Northstar.Agent.Intents
