import Northstar.Social.Contract
import Northstar.Encoding

/-! What a social request that was accepted holds, and what becomes of it when it is handed in again
without its URL (social-contract.ts). -/
namespace Northstar.Social
open Network (Url)

theorem trimTwice (text : JsString) : trim (trim text) = trim text := by
  unfold trim
  generalize left : text.dropWhile whiteSpace = a
  have first : (a.reverse.dropWhile whiteSpace).reverse.dropWhile whiteSpace = (a.reverse.dropWhile whiteSpace).reverse := by
    have front : (a.reverse.dropWhile whiteSpace).reverse <+: a := by
      have back := List.reverse_prefix.mpr (List.dropWhile_suffix whiteSpace (l := a.reverse))
      rwa [List.reverse_reverse] at back
    cases kept : (a.reverse.dropWhile whiteSpace).reverse with
    | nil => rfl
    | cons u rest =>
      rw [kept] at front
      obtain ⟨more,whole⟩ := front
      have solid := List.dropWhile_idempotent (p := whiteSpace) text
      rw [left,← whole,List.cons_append,List.dropWhile_cons] at solid
      cases space : whiteSpace u with
      | false => rw [List.dropWhile_cons,space]; rfl
      | true =>
        rw [space,if_pos rfl] at solid
        have shorter := (List.dropWhile_suffix whiteSpace (l := rest ++ more)).length_le
        rw [solid] at shorter
        simp at shorter
  rw [first,List.reverse_reverse,List.dropWhile_idempotent]

theorem andThen {α β : Type} {first : Except SocialError α} {next : α → Except SocialError β} {out : β}
    (ok : (first >>= next) = .ok out) : ∃ value, first = .ok value ∧ next value = .ok out := by
  cases first with
  | error error => contradiction
  | ok value => exact ⟨value,rfl,ok⟩

theorem refused {met : Bool} {message : JsString} : refuse met message = .ok () ↔ met = false := by
  unfold refuse
  cases met <;> simp

theorem refuseThen {α : Type} {met : Bool} {message : JsString} {next : Unit → Except SocialError α} {out : α}
    (ok : (refuse met message >>= next) = .ok out) : met = false ∧ next () = .ok out := by
  obtain ⟨_,passed,ok⟩ := andThen ok
  exact ⟨refused.mp passed,ok⟩

theorem platformBack (platform : SocialPlatform) : socialPlatformOf platform.name = some platform := by
  cases platform <;> rfl

theorem actionBack (action : SocialAction) : socialActionOf action.name = some action := by
  cases action <;> rfl

theorem specLimit (platform : SocialPlatform) (action : SocialAction) : 1 ≤ (selectorSpecFor platform action).maxLimit := by
  cases platform <;> cases action <;> decide

/- What a selector may be: there, without blanks around it, and not too long. -/
structure Proper (value : JsString) : Prop where
  some_ : value ≠ []
  trimmed : trim value = value
  short : value.length ≤ maxSelectorLength

theorem cleanProper {raw : JsValue} {value : JsString} (clean : cleanSelector raw = some value)
    (short : value.length ≤ maxSelectorLength) : Proper value := by
  cases raw with
  | string text =>
    unfold cleanSelector at clean
    dsimp only at clean
    split at clean
    · exact absurd clean nofun
    · rename_i some_
      obtain rfl := Option.some.inj clean
      exact ⟨some_,trimTwice text,short⟩
  | _ => exact absurd clean nofun

theorem properClean {value : JsString} (proper : Proper value) : cleanSelector (.string value) = some value := by
  unfold cleanSelector
  dsimp only
  rw [proper.trimmed,if_neg proper.some_]

theorem selectorPassed {platform : SocialPlatform} {action : SocialAction} {input : JsValue} {field : SocialSelectorField} :
    checkSelector platform action input field = .ok () ↔
      (present (input.get field.name) = true → field ∈ allowedDirectSelectors platform action) ∧ blank (input.get field.name) = false ∧
        ∀ value, cleanSelector (input.get field.name) = some value → value.length ≤ maxSelectorLength := by
  unfold checkSelector
  generalize input.get field.name = raw
  constructor
  · intro ok
    obtain ⟨known,ok⟩ := refuseThen ok
    obtain ⟨some_,ok⟩ := refuseThen ok
    have short := refused.mp ok
    refine ⟨fun here => ?_,some_,fun value clean => ?_⟩
    · rw [here,Bool.true_and,Bool.not_eq_false'] at known
      exact List.contains_iff_mem.mp known
    · rw [clean] at short
      exact Nat.not_lt.mp (of_decide_eq_false short)
  · rintro ⟨known,some_,short⟩
    have allowed : (present raw && !(allowedDirectSelectors platform action).contains field) = false := by
      cases here : present raw with
      | false => rfl
      | true => rw [Bool.true_and,Bool.not_eq_false',List.contains_iff_mem]; exact known here
    have fits : ((cleanSelector raw).any fun value => decide (value.length > maxSelectorLength)) = false := by
      cases clean : cleanSelector raw with
      | none => rfl
      | some value => exact decide_eq_false (Nat.not_lt.mpr (short value clean))
    simp only [allowed,some_,fits]
    rfl

theorem limitPassed {most limit : Nat} {raw : JsValue} (some_ : 1 ≤ most) (ok : resolveSocialLimit most raw = .ok limit) :
    1 ≤ limit ∧ limit ≤ most := by
  have start : 1 ≤ min defaultSocialLimit most ∧ min defaultSocialLimit most ≤ most := by
    unfold defaultSocialLimit
    omega
  unfold resolveSocialLimit at ok
  split at ok
  · exact Except.ok.inj ok ▸ start
  · exact Except.ok.inj ok ▸ start
  · rename_i n
    split at ok
    · cases ok
    · rename_i within
      cases ok
      omega
  · cases ok

theorem limitAgain {most limit : Nat} {raw : JsValue} (some_ : 1 ≤ most) (ok : resolveSocialLimit most raw = .ok limit) :
    resolveSocialLimit most (.number (.int limit)) = .ok limit := by
  obtain ⟨least,bound⟩ := limitPassed some_ ok
  unfold resolveSocialLimit
  dsimp only
  rw [if_neg (by omega)]
  rfl

/- An optional text as the value of a field. -/
def optionalText (text : Option JsString) : JsValue := (text.map JsValue.string).getD .undefined

theorem auxAgain {platform : SocialPlatform} {action : SocialAction} {allowed : Option AuxRule} {field : String} {raw : JsValue}
    {text : Option JsString} (ok : validateAuxField platform action allowed field raw = .ok text) :
    validateAuxField platform action allowed field (optionalText text) = .ok text := by
  have read (value : JsString) (same : raw = .string value) : text = some value := by
    subst same
    unfold validateAuxField at ok
    dsimp only at ok
    split at ok
    · cases ok
    · obtain ⟨-,ok⟩ := refuseThen ok
      obtain ⟨_,-,ok⟩ := andThen ok
      exact (Except.ok.inj ok).symm
  cases raw with
  | undefined => cases ok; rfl
  | string value =>
    cases read value rfl
    exact ok
  | _ => unfold validateAuxField at ok; dsimp only at ok; split at ok <;> cases ok

theorem repliesAgain {platform : SocialPlatform} {action : SocialAction} {raw : JsValue} {flag : Option Bool}
    (ok : validateReplies platform action raw = .ok flag) :
    validateReplies platform action ((flag.map JsValue.bool).getD .undefined) = .ok flag := by
  cases raw with
  | undefined => cases ok; rfl
  | bool value =>
    unfold validateReplies at ok
    dsimp only at ok
    split at ok
    · cases ok
    · rename_i supported
      cases ok
      exact if_neg supported
  | _ => unfold validateReplies at ok; dsimp only at ok; split at ok <;> cases ok

/- What a validation has passed. -/
structure Accepted (web : UrlClass) (input : JsValue) (request : SocialRequest) (warnings : List JsString) : Prop where
  known : ∃ fields, requestFields input = .ok fields ∧ checkFields fields = .ok ()
  platform : resolvePlatform (input.get "platform") = .ok request.platform
  action : resolveSocialAction request.platform (input.get "action") = .ok request.action
  checked : ∀ field, checkSelector request.platform request.action input field = .ok ()
  derived : ∃ extracted, urlSelectors web request.platform (input.get "url") = .ok (request.url,extracted) ∧
    request.selectors = filled (direct input) extracted ∧ warnings = derivedWarnings (direct input) extracted
  required : requireSelectors request.platform request.action request.selectors = .ok ()
  limit : resolveSocialLimit (selectorSpecFor request.platform request.action).maxLimit (input.get "limit") = .ok request.limit
  feedVariant : validateAuxField request.platform request.action (auxSpecFor request.platform request.action).feedVariant "feedVariant"
    (input.get "feedVariant") = .ok request.feedVariant
  sort : validateAuxField request.platform request.action (auxSpecFor request.platform request.action).sort "sort"
    (input.get "sort") = .ok request.sort
  timeRange : validateAuxField request.platform request.action (auxSpecFor request.platform request.action).timeRange "timeRange"
    (input.get "timeRange") = .ok request.timeRange
  includeReplies : validateReplies request.platform request.action (input.get "includeReplies") = .ok request.includeReplies

theorem allFields (field : SocialSelectorField) : field ∈ selectorFields := by
  cases field <;> decide

theorem everyPassed {check : SocialSelectorField → Except SocialError Unit} :
    selectorFields.forM check = .ok () ↔ ∀ field, check field = .ok () := by
  have each (fields : List SocialSelectorField) : fields.forM check = .ok () ↔ ∀ field ∈ fields, check field = .ok () := by
    induction fields with
    | nil => exact ⟨fun _ => nofun,fun _ => rfl⟩
    | cons field rest ih =>
      rw [List.forall_mem_cons,← ih]
      constructor
      · intro ok
        obtain ⟨_,first,later⟩ := andThen ok
        exact ⟨first,later⟩
      · rintro ⟨first,later⟩
        change (check field >>= fun _ => rest.forM check) = .ok ()
        rw [first]
        exact later
  exact (each selectorFields).trans ⟨fun all field => all field (allFields field),fun all field _ => all field⟩

theorem acceptedIff {web : UrlClass} {input : JsValue} {request : SocialRequest} {warnings : List JsString} :
    validateSocialRequest web input = .ok (request,warnings) ↔ Accepted web input request warnings := by
  unfold validateSocialRequest
  constructor
  · intro ok
    obtain ⟨fields,object,ok⟩ := andThen ok
    obtain ⟨_,known,ok⟩ := andThen ok
    obtain ⟨platform,platform_,ok⟩ := andThen ok
    obtain ⟨action,action_,ok⟩ := andThen ok
    obtain ⟨_,checked,ok⟩ := andThen ok
    obtain ⟨⟨url,extracted⟩,url_,ok⟩ := andThen ok
    obtain ⟨_,required,ok⟩ := andThen ok
    obtain ⟨limit,limit_,ok⟩ := andThen ok
    obtain ⟨feedVariant,feedVariant_,ok⟩ := andThen ok
    obtain ⟨sort,sort_,ok⟩ := andThen ok
    obtain ⟨timeRange,timeRange_,ok⟩ := andThen ok
    obtain ⟨includeReplies,includeReplies_,ok⟩ := andThen ok
    cases ok
    exact ⟨⟨fields,object,known⟩,platform_,action_,everyPassed.mp checked,⟨extracted,url_,rfl,rfl⟩,required,limit_,feedVariant_,sort_,
      timeRange_,includeReplies_⟩
  · rintro ⟨⟨fields,object,known⟩,platform,action,checked,⟨extracted,url,selectors,rfl⟩,required,limit,feedVariant,sort,timeRange,replies⟩
    have checked := everyPassed.mpr checked
    rw [selectors] at required
    simp only [bind,Except.bind,object,known,platform,action,checked,url,required,limit,feedVariant,sort,timeRange,replies,pure,Except.pure]
    rw [← selectors]

def SocialRequest.entries (request : SocialRequest) : List (String × Option JsValue) :=
  [("platform",some (.string request.platform.name)),("action",some (.string request.action.name)),
    ("limit",some (.number (.int request.limit))),("query",(request.selectors .query).map .string),
    ("postId",(request.selectors .postId).map .string),("commentId",(request.selectors .commentId).map .string),
    ("user",(request.selectors .user).map .string),("community",(request.selectors .community).map .string),
    ("topic",(request.selectors .topic).map .string),("url",request.url.map .string),("feedVariant",request.feedVariant.map .string),
    ("sort",request.sort.map .string),("timeRange",request.timeRange.map .string),("includeReplies",request.includeReplies.map .bool)]

/- The request as the input of another validation. -/
def SocialRequest.asInput (request : SocialRequest) : JsValue := record request.entries

theorem entriesDistinct (request : SocialRequest) : (request.entries.map Prod.fst).Nodup := by
  change ["platform","action","limit","query","postId","commentId","user","community","topic","url","feedVariant","sort","timeRange",
    "includeReplies"].Nodup
  decide

theorem entryRead {request : SocialRequest} {key : String} {value : Option JsValue} (member : (key,value) ∈ request.entries) :
    request.asInput.get key = value.getD .undefined := recordGet (entriesDistinct request) member

theorem entryHeld {request : SocialRequest} {key : String} {value : JsValue} (member : (key,some value) ∈ request.entries) :
    request.asInput.get key = value := entryRead member

theorem selectorRead (request : SocialRequest) (field : SocialSelectorField) :
    request.asInput.get field.name = ((request.selectors field).map JsValue.string).getD .undefined := by
  cases field <;> exact entryRead (by simp [SocialRequest.entries,SocialSelectorField.name])

/- Each selector is one that the action takes, as a direct one may be. -/
def Supported (request : SocialRequest) : Prop := ∀ field value, request.selectors field = some value →
  field ∈ allowedDirectSelectors request.platform request.action ∧ Proper value

/- The selectors that the URL gives and the input does not. -/
def urlGiven (web : UrlClass) (request : SocialRequest) (input : JsValue) (field : SocialSelectorField) : Option JsString :=
  match urlSelectors web request.platform (input.get "url") with
  | .ok (_,extracted) => if (direct input field).isSome then none else extracted.lookup field
  | .error _ => none

theorem entriesKnown (request : SocialRequest) :
    checkFields (request.entries.filterMap fun entry => entry.2.map fun value => (js entry.1,value)) = .ok () := by
  have none_ : (request.entries.filterMap fun entry => entry.2.map fun value => (js entry.1,value)).find?
      (fun field => !socialRequestInputFields.contains field.1) = none := by
    refine List.find?_eq_none.mpr fun field member => ?_
    obtain ⟨entry,inside,made⟩ := List.mem_filterMap.mp member
    obtain ⟨value,_,rfl⟩ := Option.map_eq_some_iff.mp made
    have names : ∀ name ∈ request.entries.map Prod.fst, socialRequestInputFields.contains (js name) = true := by
      change ∀ name ∈ ["platform","action","limit","query","postId","commentId","user","community","topic","url","feedVariant","sort",
        "timeRange","includeReplies"], socialRequestInputFields.contains (js name) = true
      decide
    rw [names _ (List.mem_map_of_mem inside)]
    exact Bool.false_ne_true
  unfold checkFields
  rw [none_]

theorem platformAgain (platform : SocialPlatform) : resolvePlatform (.string platform.name) = .ok platform := by
  unfold resolvePlatform
  rw [JsValue.asString,Option.bind_some,platformBack]

theorem actionAgain {platform : SocialPlatform} {value : JsValue} {action : SocialAction}
    (ok : resolveSocialAction platform value = .ok action) : resolveSocialAction platform (.string action.name) = .ok action := by
  have known : (canonicalActionsFor platform).contains action = true := by
    unfold resolveSocialAction at ok
    split at ok
    · rename_i found
      cases ok
      exact (Option.filter_eq_some_iff.mp found).2
    · cases ok
  unfold resolveSocialAction
  rw [JsValue.asString,Option.bind_some,actionBack,Option.filter_some_pos known]

theorem resubmitted {web : UrlClass} {input : JsValue} {request : SocialRequest} {warnings : List JsString}
    (accepted : Accepted web input request warnings) (supported : Supported request) :
    Accepted web { request with url := none }.asInput { request with url := none } [] := by
  have text (field : String) (value : Option JsString) (member : (field,value.map JsValue.string) ∈ { request with url := none }.entries) :
      { request with url := none }.asInput.get field = optionalText value := entryRead member
  have read (field : SocialSelectorField) := selectorRead { request with url := none } field
  have direct_ : direct { request with url := none }.asInput = request.selectors := by
    funext field
    unfold direct
    rw [read]
    cases held : request.selectors field with
    | none => rfl
    | some value => exact properClean (supported field value held).2
  have platform : { request with url := none }.asInput.get "platform" = .string request.platform.name := entryHeld (by simp [SocialRequest.entries])
  have action : { request with url := none }.asInput.get "action" = .string request.action.name := entryHeld (by simp [SocialRequest.entries])
  have limit : { request with url := none }.asInput.get "limit" = .number (.int request.limit) := entryHeld (by simp [SocialRequest.entries])
  have url : { request with url := none }.asInput.get "url" = .undefined := text "url" none (by simp [SocialRequest.entries])
  have replies : { request with url := none }.asInput.get "includeReplies" = (request.includeReplies.map JsValue.bool).getD .undefined :=
    entryRead (by simp [SocialRequest.entries])
  have feed := text "feedVariant" request.feedVariant (by simp [SocialRequest.entries])
  have sort := text "sort" request.sort (by simp [SocialRequest.entries])
  have time := text "timeRange" request.timeRange (by simp [SocialRequest.entries])
  exact {
    known := ⟨_,rfl,entriesKnown _⟩
    platform := by rw [platform]; exact platformAgain _
    action := by rw [action]; exact actionAgain accepted.action
    checked := fun field => by
      rw [selectorPassed,read]
      cases held : request.selectors field with
      | none => exact ⟨fun here => absurd here (by decide),rfl,nofun⟩
      | some value =>
        obtain ⟨allowed,proper⟩ := supported field value held
        refine ⟨fun _ => allowed,?_,fun clean same => ?_⟩
        · exact decide_eq_false (by rw [proper.trimmed]; exact proper.some_)
        · obtain rfl : value = clean := Option.some.inj ((properClean proper).symm.trans same)
          exact proper.short
    derived := ⟨[],by rw [url]; rfl,by rw [direct_]; funext field; exact (Option.or_none).symm,rfl⟩
    required := accepted.required
    limit := by rw [limit]; exact limitAgain (specLimit _ _) accepted.limit
    feedVariant := by rw [feed]; exact auxAgain accepted.feedVariant
    sort := by rw [sort]; exact auxAgain accepted.sort
    timeRange := by rw [time]; exact auxAgain accepted.timeRange
    includeReplies := by rw [replies]; exact repliesAgain accepted.includeReplies }

/-- The request without its URL is accepted again as the same just when each selector the URL gave is one that could have been given
directly. -/
theorem resubmittedExactly (web : UrlClass) (input : JsValue) (request : SocialRequest) (warnings : List JsString)
    (ok : validateSocialRequest web input = .ok (request,warnings)) :
    (validateSocialRequest web { request with url := none }.asInput = .ok ({ request with url := none },[]) ∧ Supported request) ↔
      ∀ field value, urlGiven web request input field = some value →
        field ∈ allowedDirectSelectors request.platform request.action ∧ Proper value := by
  have accepted := acceptedIff.mp ok
  obtain ⟨extracted,url,selectors,_⟩ := accepted.derived
  have given (field : SocialSelectorField) : urlGiven web request input field =
      if (direct input field).isSome then none else extracted.lookup field := by
    unfold urlGiven
    rw [url]
  constructor
  · rintro ⟨_,supported⟩ field value from_
    rw [given] at from_
    refine supported field value ?_
    rw [selectors]
    unfold filled
    split at from_
    · cases from_
    · rename_i none_
      rw [Option.not_isSome_iff_eq_none.mp none_]
      exact from_
  · intro fits
    have supported : Supported request := by
      intro field value held
      rw [selectors] at held
      unfold filled at held
      cases own : direct input field with
      | some clean =>
        rw [own] at held
        obtain rfl : clean = value := Option.some.inj held
        obtain ⟨allowed,_,short⟩ := selectorPassed.mp (accepted.checked field)
        refine ⟨allowed ?_,cleanProper own (short clean own)⟩
        unfold direct cleanSelector at own
        cases raw : input.get field.name <;> rw [raw] at own <;> first | rfl | cases own
      | none =>
        rw [own] at held
        refine fits field value ?_
        rw [given,own]
        exact held
    exact ⟨acceptedIff.mpr (resubmitted accepted supported),supported⟩

def postPage (path : String) : Url := ⟨Network.https,[],[],js "reddit.com",[],js path,[],[],by decide,Network.noPort⟩

/- Two spellings of the address of one post. -/
def postUrls : UrlClass where
  parse text _ := if text = js "https://reddit.com/comments/1" then some (postPage "/comments/1")
    else if text = js "https://reddit.com/r/x/comments/1" then some (postPage "/r/x/comments/1") else none
  searchParam _ _ := none

def postInput (url : String) : JsValue :=
  .object [(js "platform",.string (js "reddit")),(js "action",.string (js "get_post")),(js "url",.string (js url))]

def postRequest (url : String) (community : Option JsString) : SocialRequest where
  platform := .reddit
  action := .getPost
  limit := 20
  selectors field := match field with
    | .postId => some (js "1")
    | .community => community
    | _ => none
  url := some (js url)
  feedVariant := none
  sort := none
  timeRange := none
  includeReplies := none

theorem postAccepted (url : String) (community : Option JsString) (warnings : List JsString)
    (known : checkFields [(js "platform",.string (js "reddit")),(js "action",.string (js "get_post")),(js "url",.string (js url))] = .ok ())
    (extracted : List (SocialSelectorField × JsString))
    (read : urlSelectors postUrls .reddit (.string (js url)) = .ok (some (js url),extracted))
    (selectors : (postRequest url community).selectors = filled (direct (postInput url)) extracted)
    (told : warnings = derivedWarnings (direct (postInput url)) extracted) :
    validateSocialRequest postUrls (postInput url) = .ok (postRequest url community,warnings) :=
  acceptedIff.mpr {
    known := ⟨_,rfl,known⟩
    platform := rfl
    action := rfl
    checked := fun field => by cases field <;> rfl
    derived := ⟨extracted,read,selectors,told⟩
    required := rfl
    limit := rfl
    feedVariant := rfl
    sort := rfl
    timeRange := rfl
    includeReplies := by rfl }

theorem barePost : Supported (postRequest "https://reddit.com/comments/1" none) := by
  have ok : validateSocialRequest postUrls (postInput "https://reddit.com/comments/1") =
      .ok (postRequest "https://reddit.com/comments/1" none,[js "postId derived from url"]) :=
    postAccepted _ _ _ (by decide) [(.postId,js "1")] (by decide) (by funext field; cases field <;> decide) (by decide)
  refine ((resubmittedExactly postUrls _ _ _ ok).mpr fun field value given => ?_).2
  have only : urlGiven postUrls (postRequest "https://reddit.com/comments/1" none) (postInput "https://reddit.com/comments/1") field =
      if field = .postId then some (js "1") else none := by cases field <;> rfl
  rw [only] at given
  split at given
  · rename_i named
    cases given
    cases named
    exact ⟨by decide,by decide,by decide,by decide⟩
  · cases given

/- The community in the address of a post rides along and is refused when it is handed in again. -/
theorem communityRides :
    validateSocialRequest postUrls (postInput "https://reddit.com/r/x/comments/1") =
      .ok (postRequest "https://reddit.com/r/x/comments/1" (some (js "x")),
        [js "community derived from url",js "postId derived from url"]) ∧
    validateSocialRequest postUrls
        { postRequest "https://reddit.com/r/x/comments/1" (some (js "x")) with url := none }.asInput =
      .error (invalid (js "reddit get_post does not support selector: community")) := by
  refine ⟨?_,rfl⟩
  exact postAccepted _ _ _ (by decide) [(.community,js "x"),(.postId,js "1")] (by decide) (by funext field; cases field <;> decide) (by decide)

end Northstar.Social
