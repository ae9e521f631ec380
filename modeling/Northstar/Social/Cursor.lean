import Northstar.Github.Cursor
import Northstar.Social.Resubmission

/-! The cursors of social lists and what binds them to a request (social-contract.ts). -/
namespace Northstar.Social
open Research (CursorState ScalarState)
open Github (Filled textSame wholeScript parseJson)
open Utf8 (scrub wellFormed)

def cursorParts (input : SocialRequest) : List JsString :=
  [input.platform.name,input.action.name,(input.selectors .query).getD [],(input.selectors .postId).getD [],
    (input.selectors .commentId).getD [],(input.selectors .user).getD [],(input.selectors .community).getD [],
    (input.selectors .topic).getD [],input.feedVariant.getD [],input.sort.getD [],input.timeRange.getD [],
    (input.includeReplies.map fun flag => js (if flag then "true" else "false")).getD [],js (toString input.limit)]

def cursorBytes (input : SocialRequest) : Bytes := utf8 ([124].intercalate (cursorParts input))

def socialCursorFingerprint (sha256hex : Bytes → JsString) (input : SocialRequest) : JsString := sha256hex (cursorBytes input)

structure SocialCursorInput where
  platform : SocialPlatform
  action : SocialAction
  backend : JsString
  fingerprint : JsString
  state : CursorState

structure SocialCursorExpectation where
  platform : SocialPlatform
  action : SocialAction
  backend : JsString
  fingerprint : JsString

structure DecodedSocialCursor where
  platform : SocialPlatform
  action : SocialAction
  backend : JsString
  state : CursorState

def socialMaxCursorLength : Nat := 4096

def forbiddenCursorSubstrings : List JsString := [js "cookie",js "xsec_token",js "auth_token",js "access_token",js "refresh_token",
  js "id_token",js "authorization",js "bearer",js "password",js "secret",js "api_key",js "apikey",js "ct0",js "sessdata",js "http://",
  js "https://"]

def cursorInvalid (message : JsString) : SocialError := { code := .cursorInvalid, message := message }

def tooLong : SocialError := cursorInvalid (js "cursor exceeds maximum length of " ++ js (toString socialMaxCursorLength))

section
variable (toLowerCase : JsString → JsString)

def unsafeField (field : JsString × JsValue) : Option JsString :=
  let haystack := toLowerCase (field.1 ++ 32 :: field.2.asString.getD [])
  if field.1.length = 0 then some (js "cursor state keys must be non-empty")
  else if forbiddenCursorSubstrings.any fun forbidden => decide (forbidden <:+: haystack) then
    some (js "cursor state contains forbidden material in \"" ++ field.1 ++ js "\"")
  else none

def assertCursorSafe (state : CursorState) : Except SocialError Unit := match state.findSome? (unsafeField toLowerCase) with
  | some message => .error (cursorInvalid message)
  | none => .ok ()

def socialPayload (input : SocialCursorInput) : JsValue :=
  .object [(js "v",.number (.int 1)),(js "platform",.string input.platform.name),(js "action",.string input.action.name),
    (js "backend",.string input.backend),(js "fingerprint",.string input.fingerprint),(js "state",.object input.state)]

def socialToken (input : SocialCursorInput) : JsString := base64url (utf8 (stringify (socialPayload input)))

def encodeSocialCursor (input : SocialCursorInput) : Except SocialError JsString := do
  assertCursorSafe toLowerCase input.state
  if (socialToken input).length > socialMaxCursorLength then .error tooLong else pure (socialToken input)

def cursorScalar : JsValue → Bool
  | .string _ => true
  | .number _ => true
  | .bool _ => true
  | _ => false

def isSocialCursorState : JsValue → Option CursorState
  | .object state => if state.all fun field => cursorScalar field.2 then some state else none
  | _ => none

def mismatch (platform : SocialPlatform) (action : SocialAction) (backend : JsString) (expected : SocialCursorExpectation) : SocialError where
  code := .cursorMismatch
  message := js "cursor was issued for " ++ platform.name ++ js "/" ++ action.name ++ js "/" ++ backend ++ js ", not " ++
    expected.platform.name ++ js "/" ++ expected.action.name ++ js "/" ++ expected.backend
  platform := some expected.platform
  backend := some expected.backend

def decodeSocialCursor (parse : Bytes → Option JsValue) (cursor : JsString) (expected : SocialCursorExpectation) :
    Except SocialError DecodedSocialCursor :=
  if cursor.length = 0 then .error (cursorInvalid (js "cursor is required"))
  else if cursor.length > socialMaxCursorLength then .error tooLong
  else match parse (fromBase64url cursor) with
    | none => .error (cursorInvalid (js "cursor is not a valid opaque token"))
    | some record =>
        if !Research.isRecord record then .error (cursorInvalid (js "cursor payload is invalid"))
        else if !(record.get "v" matches .number (.int 1)) then .error (cursorInvalid (js "cursor payload version must be 1"))
        else match (record.get "platform").asString.bind socialPlatformOf,(record.get "action").asString.bind socialActionOf with
          | some platform,some action => match record.get "backend",record.get "fingerprint" with
            | .string backend,.string fingerprint =>
                if backend.length = 0 || fingerprint.length = 0 then .error (cursorInvalid (js "cursor backend/fingerprint is invalid"))
                else match isSocialCursorState (record.get "state") with
                  | none => .error (cursorInvalid (js "cursor state contains non-scalar values"))
                  | some state => do
                      assertCursorSafe toLowerCase state
                      if platform ≠ expected.platform ∨ action ≠ expected.action ∨ backend ≠ expected.backend ∨
                          fingerprint ≠ expected.fingerprint then .error (mismatch platform action backend expected)
                      else pure ⟨platform,action,backend,state⟩
            | _,_ => .error (cursorInvalid (js "cursor backend/fingerprint is invalid"))
          | _,_ => .error (cursorInvalid (js "cursor platform/action is invalid"))

end

/- The same list asked for: all that a cursor is to be bound to agrees. -/
structure SameSelection (r s : SocialRequest) : Prop where
  platform : r.platform = s.platform
  action : r.action = s.action
  limit : r.limit = s.limit
  selectors : r.selectors = s.selectors
  feedVariant : r.feedVariant = s.feedVariant
  sort : r.sort = s.sort
  timeRange : r.timeRange = s.timeRange
  includeReplies : r.includeReplies = s.includeReplies

/- The pieces between bars, in the order of the fields; what stands for a lone surrogate in UTF-8 counts as it. -/
def barPieces (request : SocialRequest) : List JsString := Separated.pieces 124 ((cursorParts request).map scrub)

theorem boundSame (r s : SocialRequest) : cursorBytes r = cursorBytes s ↔ barPieces r = barPieces s := by
  unfold cursorBytes barPieces
  rw [Utf8.bytesSame,Utf8.scrubJoined (by decide),Utf8.scrubJoined (by decide)]
  exact Separated.joinedSame (List.cons_ne_nil _ _) (List.cons_ne_nil _ _)

section
variable {numerals : Json.Numerals} {sha256hex : Bytes → JsString} {toLowerCase : JsString → JsString}

/- The states of a social cursor: texts, finite numbers and booleans. -/
structure SocialCursorState (numerals : Json.Numerals) (state : CursorState) : Prop where
  valid : ScalarState numerals state
  scalars : ∀ field ∈ state, cursorScalar field.2 = true

theorem socialPlain {input : SocialCursorInput} (valid : ScalarState numerals input.state) :
    Json.Plain numerals (socialPayload input) := by
  have keys : [js "v",js "platform",js "action",js "backend",js "fingerprint",js "state"].Pairwise fun a b =>
      a ≠ b ∧ Json.listedBefore a b = true := by decide
  exact ⟨Json.enumeratedKeys keys,numerals.whole 1 (by decide),trivial,trivial,trivial,trivial,Research.statePlain valid,trivial⟩

theorem encodedSocial {input : SocialCursorInput} {cursor : JsString} (ok : encodeSocialCursor toLowerCase input = .ok cursor) :
    assertCursorSafe toLowerCase input.state = .ok () ∧ (socialToken input).length ≤ socialMaxCursorLength ∧ cursor = socialToken input := by
  obtain ⟨_,safe,ok⟩ := andThen ok
  split at ok
  · cases ok
  · rename_i short
    exact ⟨safe,Nat.not_lt.mp short,(Except.ok.inj ok).symm⟩

theorem tokenSome (input : SocialCursorInput) : (socialToken input).length ≠ 0 := by
  have size := base64Size (utf8 (stringify (socialPayload input)))
  have bytes := lengthBytes (stringify (socialPayload input))
  have first : 0 < (stringify (socialPayload input)).length := by simp [socialPayload,stringify]
  unfold byteLength at bytes
  unfold socialToken
  omega

/- A cursor that was issued is read back where its binding is named and the one expected, and refused elsewhere. -/
theorem issuedSocial {input : SocialCursorInput} {cursor : JsString} (ok : encodeSocialCursor toLowerCase input = .ok cursor)
    (valid : SocialCursorState numerals input.state) (expected : SocialCursorExpectation) :
    decodeSocialCursor toLowerCase (parseJson numerals) cursor expected =
      if input.backend = [] ∨ input.fingerprint = [] then .error (cursorInvalid (js "cursor backend/fingerprint is invalid"))
      else if input.platform ≠ expected.platform ∨ input.action ≠ expected.action ∨ input.backend ≠ expected.backend ∨
        input.fingerprint ≠ expected.fingerprint then .error (mismatch input.platform input.action input.backend expected)
      else .ok ⟨input.platform,input.action,input.backend,input.state⟩ := by
  obtain ⟨safe,short,rfl⟩ := encodedSocial ok
  have parsed : parseJson numerals (fromBase64url (socialToken input)) = some (socialPayload input) := by
    rw [socialToken,base64Read,parseJson,Json.parseBack numerals (socialPlain valid.valid)]
  have v : (socialPayload input).get "v" = .number (.int 1) := rfl
  have platform : (socialPayload input).get "platform" = .string input.platform.name := rfl
  have action : (socialPayload input).get "action" = .string input.action.name := rfl
  have backend_ : (socialPayload input).get "backend" = .string input.backend := rfl
  have fingerprint : (socialPayload input).get "fingerprint" = .string input.fingerprint := rfl
  have state : (socialPayload input).get "state" = .object input.state := rfl
  have record : (!Research.isRecord (socialPayload input)) = false := rfl
  have accepted : isSocialCursorState (.object input.state) = some input.state := if_pos (List.all_eq_true.mpr valid.scalars)
  unfold decodeSocialCursor
  rw [if_neg (tokenSome input),if_neg (Nat.not_lt.mpr short),parsed]
  simp only [record,v,platform,action,backend_,fingerprint,state,accepted,JsValue.asString,Option.bind_some,platformBack,actionBack,safe,
    List.length_eq_zero_iff,Bool.or_eq_true,decide_eq_true_eq]
  rfl

theorem auxSome {platform : SocialPlatform} {action : SocialAction} {allowed : Option AuxRule} {field : String} {raw : JsValue}
    {text : Option JsString} (ok : validateAuxField platform action allowed field raw = .ok text) : Filled text := by
  cases raw with
  | undefined => cases ok; exact nofun
  | string value =>
    unfold validateAuxField at ok
    dsimp only at ok
    split at ok
    · cases ok
    · obtain ⟨some_,ok⟩ := refuseThen ok
      obtain ⟨_,-,ok⟩ := andThen ok
      cases ok
      intro empty
      cases empty
      exact absurd some_ (by decide)
  | _ => unfold validateAuxField at ok; dsimp only at ok; split at ok <;> cases ok

theorem flagApart {a b : Option Bool} (same : (a.map fun flag => js (if flag then "true" else "false")).getD [] =
    (b.map fun flag => js (if flag then "true" else "false")).getD []) : a = b := by
  revert a b
  decide

/- Where no text of two accepted requests is empty, the joined parts tell them apart. -/
theorem partsSame {web : UrlClass} {a b : JsValue} {r s : SocialRequest} {noted noted' : List JsString}
    (first : Accepted web a r noted) (second : Accepted web b s noted') (filled_ : ∀ field, Filled (r.selectors field))
    (filled' : ∀ field, Filled (s.selectors field)) (same : cursorParts r = cursorParts s) : SameSelection r s := by
  simp only [cursorParts,List.cons.injEq,and_true] at same
  obtain ⟨platform,action,query,postId,commentId,user,community,topic,feedVariant,sort,timeRange,replies,limit⟩ := same
  exact {
    platform := Option.some.inj ((platformBack r.platform).symm.trans ((congrArg socialPlatformOf platform).trans (platformBack s.platform)))
    action := Option.some.inj ((actionBack r.action).symm.trans ((congrArg socialActionOf action).trans (actionBack s.action)))
    limit := Int.ofNat.inj (wholeScript limit)
    selectors := by
      funext field
      have texts : (r.selectors field).getD [] = (s.selectors field).getD [] := by cases field <;> assumption
      exact textSame (filled_ field) (filled' field) texts
    feedVariant := textSame (auxSome first.feedVariant) (auxSome second.feedVariant) feedVariant
    sort := textSame (auxSome first.sort) (auxSome second.sort) sort
    timeRange := textSame (auxSome first.timeRange) (auxSome second.timeRange) timeRange
    includeReplies := flagApart replies }

/- Where no field of one request holds a bar or what UTF-8 confuses, no other request regroups it. -/
theorem plainParts {r s : SocialRequest} (plain : ∀ part ∈ cursorParts r, 124 ∉ part ∧ wellFormed part ∧ 0xFFFD ∉ part)
    (same : barPieces r = barPieces s) : cursorParts r = cursorParts s := by
  have own : (cursorParts r).map scrub = cursorParts r :=
    (List.map_congr_left fun part member => Utf8.scrubWell (plain part member).2.1).trans (List.map_id' _)
  unfold barPieces at same
  rw [own] at same
  have fields := Separated.plainApart (fun part member => (plain part member).1) (by rw [List.length_map]; rfl) same
  refine List.ext_getElem rfl fun i left right => ?_
  have part : scrub ((cursorParts s)[i]) = (cursorParts r)[i] := by
    simp only [fields,List.getElem_map]
  have unique := (Utf8.bytesUnique _).mpr (plain _ (List.getElem_mem left)).2 _
    ((Utf8.bytesSame ((cursorParts s)[i]) ((cursorParts r)[i])).mpr
      (part.trans (Utf8.scrubWell (plain _ (List.getElem_mem left)).2.1).symm))
  exact unique.symm

/- What cursors promise two requests. -/
structure Apart (numerals : Json.Numerals) (sha256hex : Bytes → JsString) (toLowerCase : JsString → JsString) (r s : SocialRequest) :
    Prop where
  differ : socialCursorFingerprint sha256hex r ≠ socialCursorFingerprint sha256hex s
  refused : ∀ backend state cursor, SocialCursorState numerals state →
    encodeSocialCursor toLowerCase ⟨r.platform,r.action,backend,socialCursorFingerprint sha256hex r,state⟩ = .ok cursor →
    ∃ error, decodeSocialCursor toLowerCase (parseJson numerals) cursor
      ⟨s.platform,s.action,backend,socialCursorFingerprint sha256hex s⟩ = .error error

/-- Cursors keep two requests apart unless both hold the same pieces between bars; they do so wherever no text of the two is empty and
one of them holds no bar, no lone surrogate and no U+FFFD. A cursor is read back just when its backend and its fingerprint are not
empty. -/
theorem socialCursors (web : UrlClass) (numerals : Json.Numerals) (sha256hex : Bytes → JsString) (toLowerCase : JsString → JsString)
    {a b : JsValue} {r s : SocialRequest} {noted noted' : List JsString}
    (first : validateSocialRequest web a = .ok (r,noted)) (second : validateSocialRequest web b = .ok (s,noted'))
    (differ : ¬SameSelection r s)
    (collisionFree : sha256hex (cursorBytes r) = sha256hex (cursorBytes s) → cursorBytes r = cursorBytes s) :
    (Apart numerals sha256hex toLowerCase r s ↔ barPieces r ≠ barPieces s) ∧
    ((∀ field, Filled (r.selectors field) ∧ Filled (s.selectors field)) →
      (∀ part ∈ cursorParts r, 124 ∉ part ∧ wellFormed part ∧ 0xFFFD ∉ part) → barPieces r ≠ barPieces s) ∧
    ∀ input cursor, SocialCursorState numerals input.state → encodeSocialCursor toLowerCase input = .ok cursor →
      (decodeSocialCursor toLowerCase (parseJson numerals) cursor ⟨input.platform,input.action,input.backend,input.fingerprint⟩ =
        .ok ⟨input.platform,input.action,input.backend,input.state⟩ ↔ input.backend ≠ [] ∧ input.fingerprint ≠ []) := by
  refine ⟨⟨fun bound same => ?_,fun apart => ?_⟩,fun filled_ plain same => ?_,fun input cursor valid ok => ?_⟩
  · exact bound.differ (congrArg sha256hex ((boundSame r s).mpr same))
  · have hashed : socialCursorFingerprint sha256hex r ≠ socialCursorFingerprint sha256hex s :=
      fun same => apart ((boundSame r s).mp (collisionFree same))
    refine ⟨hashed,fun backend state cursor valid ok => ?_⟩
    rw [issuedSocial ok valid]
    split
    · exact ⟨_,rfl⟩
    · rw [if_pos (.inr (.inr (.inr hashed)))]
      exact ⟨_,rfl⟩
  · exact differ (partsSame (acceptedIff.mp first) (acceptedIff.mp second) (fun field => (filled_ field).1) (fun field => (filled_ field).2)
      (plainParts plain same))
  · rw [issuedSocial ok valid]
    by_cases unnamed : input.backend = [] ∨ input.fingerprint = []
    · rw [if_pos unnamed]
      exact ⟨nofun,fun named => (unnamed.elim named.1 named.2).elim⟩
    · rw [if_neg unnamed,if_neg (by simp)]
      exact ⟨fun _ => not_or.mp unnamed,fun _ => rfl⟩

end

def redditSearch (query timeRange : String) : JsValue :=
  .object [(js "platform",.string (js "reddit")),(js "action",.string (js "search")),(js "query",.string (js query)),
    (js "timeRange",.string (js timeRange))]

def redditSearched (query timeRange : String) : SocialRequest where
  platform := .reddit
  action := .search
  limit := 20
  selectors field := if field = .query then some (js query) else none
  url := none
  feedVariant := none
  sort := none
  timeRange := some (js timeRange)
  includeReplies := none

theorem searchAccepted (query timeRange : String) (proper : Proper (js query)) (ranged : js timeRange ≠ []) :
    validateSocialRequest postUrls (redditSearch query timeRange) = .ok (redditSearched query timeRange,[]) := by
  have own : direct (redditSearch query timeRange) = (redditSearched query timeRange).selectors := by
    funext field
    cases field with
    | query => exact properClean proper
    | _ => rfl
  exact acceptedIff.mpr {
    known := ⟨_,rfl,rfl⟩
    platform := rfl
    action := rfl
    checked := fun field => by
      cases field with
      | query =>
        have supported : SocialSelectorField.query ∈ allowedDirectSelectors .reddit .search := by decide
        refine selectorPassed.mpr ⟨fun _ => supported,?_,fun value clean => ?_⟩
        · exact decide_eq_false (by rw [proper.trimmed]; exact proper.some_)
        · exact Option.some.inj ((properClean proper).symm.trans clean) ▸ proper.short
      | _ => rfl
    derived := ⟨[],rfl,by rw [own]; funext field; exact (Option.or_none).symm,rfl⟩
    required := rfl
    limit := rfl
    feedVariant := rfl
    sort := rfl
    timeRange := by
      change (refuse (decide ((js timeRange).length = 0)) _ >>= fun _ => _) = _
      rw [decide_eq_false (by simpa using ranged)]
      rfl
    includeReplies := rfl }

theorem statelessIssued {input : SocialCursorInput} (stateless : input.state = [])
    (short : (socialToken input).length ≤ socialMaxCursorLength) : encodeSocialCursor id input = .ok (socialToken input) := by
  unfold encodeSocialCursor
  rw [stateless,if_neg (Nat.not_lt.mpr short)]
  rfl

theorem queriesApart : (Apart Json.wholeNumerals Github.plainSha id (redditSearched "graph" "week") (redditSearched "tree" "week") ↔
      barPieces (redditSearched "graph" "week") ≠ barPieces (redditSearched "tree" "week")) ∧
    ∃ cursor, encodeSocialCursor id ⟨.reddit,.search,js "rdt",js "f",[]⟩ = .ok cursor ∧
      decodeSocialCursor id (parseJson Json.wholeNumerals) cursor ⟨.reddit,.search,js "rdt",js "f"⟩ = .ok ⟨.reddit,.search,js "rdt",[]⟩ := by
  have told := @socialCursors postUrls Json.wholeNumerals Github.plainSha id _ _ _ _ _ _
    (searchAccepted "graph" "week" ⟨by decide,by decide,by decide⟩ (by decide))
    (searchAccepted "tree" "week" ⟨by decide,by decide,by decide⟩ (by decide))
    (fun same => absurd (congrFun same.selectors .query) (by decide))
    (fun same => List.map_injective_iff.mpr (fun x y same => by simpa using congrArg UInt16.toUInt8 same) same)
  have valid : SocialCursorState Json.wholeNumerals [] := ⟨⟨Json.enumeratedKeys List.Pairwise.nil,nofun,nofun⟩,nofun⟩
  have ok := @statelessIssued ⟨.reddit,.search,js "rdt",js "f",[]⟩ rfl (by decide +kernel)
  exact ⟨told.1,_,ok,(told.2.2 ⟨.reddit,.search,js "rdt",js "f",[]⟩ _ valid ok).mpr ⟨by decide,by decide⟩⟩

/- One list's cursor is taken for the other's, whatever the digest. -/
theorem barsRegrouped :
    validateSocialRequest postUrls (redditSearch "a" "x||||||||y") = .ok (redditSearched "a" "x||||||||y",[]) ∧
    validateSocialRequest postUrls (redditSearch "a||||||||x" "y") = .ok (redditSearched "a||||||||x" "y",[]) ∧
    ¬SameSelection (redditSearched "a" "x||||||||y") (redditSearched "a||||||||x" "y") ∧
    ∀ sha256hex, socialCursorFingerprint sha256hex (redditSearched "a" "x||||||||y") =
      socialCursorFingerprint sha256hex (redditSearched "a||||||||x" "y") :=
  ⟨searchAccepted _ _ ⟨by decide,by decide,by decide⟩ (by decide),searchAccepted _ _ ⟨by decide,by decide,by decide⟩ (by decide),
    fun same => absurd (congrFun same.selectors .query) (by decide),fun sha256hex => congrArg sha256hex (by decide)⟩

end Northstar.Social
