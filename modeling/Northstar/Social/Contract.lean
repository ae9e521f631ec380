import Mathlib.Data.Fintype.Pi
import Northstar.Network.Url
import Northstar.Research.Shared

/-! Requests to the social platforms and their validation (social-core.ts, social-contract.ts). The
URL class is a parameter, its parser and the first value of a query parameter. -/
namespace Northstar.Social
open Network (Url UrlParser digit)
open Research (textOf)

inductive SocialPlatform where
  | twitter
  | reddit
  | xiaohongshu
  | facebook
  | instagram
  | v2ex
  | linkedin
  deriving DecidableEq, Repr

def SocialPlatform.name : SocialPlatform → JsString
  | .twitter => js "twitter"
  | .reddit => js "reddit"
  | .xiaohongshu => js "xiaohongshu"
  | .facebook => js "facebook"
  | .instagram => js "instagram"
  | .v2ex => js "v2ex"
  | .linkedin => js "linkedin"

def socialPlatforms : List SocialPlatform := [.twitter,.reddit,.xiaohongshu,.facebook,.instagram,.v2ex,.linkedin]

inductive SocialAction where
  | search
  | getPost
  | getThread
  | getComments
  | getCommentReplies
  | getProfile
  | getUserPosts
  | getUserComments
  | getFollowers
  | getFollowing
  | getFeed
  | getTrending
  | getSaved
  | getNotifications
  | getCommunity
  | getCommunityPosts
  | getTopic
  deriving DecidableEq, Repr

def SocialAction.name : SocialAction → JsString
  | .search => js "search"
  | .getPost => js "get_post"
  | .getThread => js "get_thread"
  | .getComments => js "get_comments"
  | .getCommentReplies => js "get_comment_replies"
  | .getProfile => js "get_profile"
  | .getUserPosts => js "get_user_posts"
  | .getUserComments => js "get_user_comments"
  | .getFollowers => js "get_followers"
  | .getFollowing => js "get_following"
  | .getFeed => js "get_feed"
  | .getTrending => js "get_trending"
  | .getSaved => js "get_saved"
  | .getNotifications => js "get_notifications"
  | .getCommunity => js "get_community"
  | .getCommunityPosts => js "get_community_posts"
  | .getTopic => js "get_topic"

def socialActions : List SocialAction :=
  [.search,.getPost,.getThread,.getComments,.getCommentReplies,.getProfile,.getUserPosts,.getUserComments,.getFollowers,.getFollowing,
    .getFeed,.getTrending,.getSaved,.getNotifications,.getCommunity,.getCommunityPosts,.getTopic]

def socialPlatformOf (text : JsString) : Option SocialPlatform := socialPlatforms.find? fun platform => platform.name = text
def socialActionOf (text : JsString) : Option SocialAction := socialActions.find? fun action => action.name = text

def canonicalActionsFor : SocialPlatform → List SocialAction
  | .twitter => [.search,.getPost,.getThread,.getComments,.getCommentReplies,.getProfile,.getUserPosts,.getFollowers,.getFollowing,
      .getFeed,.getTrending,.getSaved,.getNotifications]
  | .reddit => [.search,.getPost,.getThread,.getComments,.getCommentReplies,.getProfile,.getUserPosts,.getUserComments,.getFeed,
      .getTrending,.getSaved,.getCommunity,.getCommunityPosts]
  | .xiaohongshu => [.search,.getPost,.getComments,.getProfile,.getUserPosts,.getFollowers,.getFollowing,.getFeed,.getSaved,
      .getNotifications]
  | .facebook => [.search,.getProfile,.getFeed,.getNotifications,.getCommunity]
  | .instagram => [.search,.getProfile,.getUserPosts,.getFollowers,.getFollowing,.getTrending,.getSaved]
  | .v2ex => [.getTopic,.getThread,.getComments,.getProfile,.getTrending,.getCommunity,.getCommunityPosts,.getNotifications]
  | .linkedin => [.search,.getProfile,.getUserPosts,.getFeed]

inductive SocialErrorCode where
  | invalidRequest
  | unsupportedAction
  | cursorInvalid
  | cursorMismatch
  deriving DecidableEq, Repr

structure SocialError where
  code : SocialErrorCode
  message : JsString
  platform : Option SocialPlatform := none
  backend : Option JsString := none
  deriving DecidableEq, Repr

inductive SocialSelectorField where
  | query
  | postId
  | commentId
  | user
  | community
  | topic
  deriving DecidableEq, Repr

def SocialSelectorField.name : SocialSelectorField → String
  | .query => "query"
  | .postId => "postId"
  | .commentId => "commentId"
  | .user => "user"
  | .community => "community"
  | .topic => "topic"

def selectorFields : List SocialSelectorField := [.query,.postId,.commentId,.user,.community,.topic]

instance : Fintype SocialSelectorField where
  elems := ⟨selectorFields,by decide⟩
  complete := fun field => by cases field <;> decide

/- Partial<Record<SocialSelectorField,string>> -/
abbrev Selectors := SocialSelectorField → Option JsString

def defaultSocialLimit : Nat := 20
def socialMaxLimit : Nat := 100
def maxSelectorLength : Nat := 1024

structure SocialActionSelectorSpec where
  required : List SocialSelectorField := []
  anyOf : Option (List SocialSelectorField) := none
  maxLimit : Nat := socialMaxLimit

def socialActionSelectors : SocialPlatform → List (SocialAction × SocialActionSelectorSpec)
  | .twitter => [(.search,{ required := [.query] }),(.getPost,{ anyOf := some [.postId] }),(.getThread,{ anyOf := some [.postId] }),
      (.getComments,{ anyOf := some [.postId] }),(.getCommentReplies,{ required := [.commentId] }),(.getProfile,{ required := [.user] }),
      (.getUserPosts,{ required := [.user] }),(.getFollowers,{ required := [.user] }),(.getFollowing,{ required := [.user] }),
      (.getFeed,{}),(.getTrending,{}),(.getSaved,{}),(.getNotifications,{})]
  | .reddit => [(.search,{ required := [.query] }),(.getPost,{ anyOf := some [.postId] }),(.getThread,{ anyOf := some [.postId] }),
      (.getComments,{ anyOf := some [.postId] }),(.getCommentReplies,{ required := [.commentId] }),(.getProfile,{ required := [.user] }),
      (.getUserPosts,{ required := [.user] }),(.getUserComments,{ required := [.user] }),(.getFeed,{}),(.getTrending,{}),(.getSaved,{}),
      (.getCommunity,{ required := [.community] }),(.getCommunityPosts,{ required := [.community] })]
  | .xiaohongshu => [(.search,{ required := [.query] }),(.getPost,{ anyOf := some [.postId] }),
      (.getComments,{ anyOf := some [.postId], maxLimit := 50 }),(.getProfile,{ required := [.user] }),
      (.getUserPosts,{ required := [.user] }),(.getFollowers,{ required := [.user] }),(.getFollowing,{ required := [.user] }),
      (.getFeed,{}),(.getSaved,{}),(.getNotifications,{})]
  | .facebook => [(.search,{ required := [.query] }),(.getProfile,{ required := [.user] }),(.getFeed,{}),(.getNotifications,{}),
      (.getCommunity,{ required := [.community] })]
  | .instagram => [(.search,{ required := [.query] }),(.getProfile,{ required := [.user] }),(.getUserPosts,{ required := [.user] }),
      (.getFollowers,{ required := [.user] }),(.getFollowing,{ required := [.user] }),(.getTrending,{}),(.getSaved,{})]
  | .v2ex => [(.getTopic,{ required := [.topic] }),(.getThread,{ anyOf := some [.postId] }),(.getComments,{ anyOf := some [.postId] }),
      (.getProfile,{ required := [.user] }),(.getTrending,{}),(.getCommunity,{ required := [.community] }),
      (.getCommunityPosts,{ required := [.community] }),(.getNotifications,{})]
  | .linkedin => [(.search,{ required := [.query], maxLimit := 10 }),(.getProfile,{ required := [.user] }),
      (.getUserPosts,{ required := [.user] }),(.getFeed,{})]

def selectorSpecFor (platform : SocialPlatform) (action : SocialAction) : SocialActionSelectorSpec :=
  ((socialActionSelectors platform).lookup action).getD {}

def allowedDirectSelectors (platform : SocialPlatform) (action : SocialAction) : List SocialSelectorField :=
  (selectorSpecFor platform action).required ++ (selectorSpecFor platform action).anyOf.getD []

/- What an auxiliary field may hold: one of a closed list, a date, or any text. -/
inductive AuxRule where
  | oneOf (allowed : List String)
  | date
  | any

structure SocialAuxSpec where
  sort : Option AuxRule := none
  timeRange : Option AuxRule := none
  feedVariant : Option AuxRule := none
  includeReplies : Bool := false

def socialAuxSpecs : SocialPlatform → List (SocialAction × SocialAuxSpec)
  | .twitter => [(.search,{ sort := some (.oneOf ["top","latest"]), timeRange := some .date }),
      (.getFeed,{ feedVariant := some (.oneOf ["for-you","following"]) })]
  | .reddit => [(.search,{ sort := some (.oneOf ["relevance","hot","top","new","comments"]), timeRange := some .any }),
      (.getThread,{ includeReplies := true }),(.getComments,{ includeReplies := true }),
      (.getFeed,{ feedVariant := some (.oneOf ["popular","all"]) }),(.getTrending,{ feedVariant := some (.oneOf ["hot"]) }),
      (.getCommunityPosts,{ sort := some (.oneOf ["hot","new","top","rising"]) })]
  | .xiaohongshu => [(.getComments,{ includeReplies := true }),
      (.getNotifications,{ feedVariant := some (.oneOf ["mentions","likes","connections"]) })]
  | _ => []

def auxSpecFor (platform : SocialPlatform) (action : SocialAction) : SocialAuxSpec :=
  ((socialAuxSpecs platform).lookup action).getD {}

/- `^\d{4}-\d{2}-\d{2}$` -/
def socialDate (text : JsString) : Bool :=
  text.length = 10 && (text.take 4).all digit && text[4]? = some 45 && ((text.drop 5).take 2).all digit && text[7]? = some 45 &&
    (text.drop 8).all digit

def invalid (message : JsString) : SocialError := { code := .invalidRequest, message := message }

def refuse (met : Bool) (message : JsString) : Except SocialError Unit := if met then .error (invalid message) else .ok ()

def AuxRule.admit (rule : AuxRule) (owner : JsString) (field : String) (value : JsString) : Except SocialError Unit := match rule with
  | .oneOf allowed => refuse (!(allowed.map js).contains value)
      (owner ++ js " invalid " ++ js field ++ js " \"" ++ value.take 32 ++ js "\", expected one of: " ++ (js ", ").intercalate (allowed.map js))
  | .date => refuse (!socialDate value) (js field ++ js " must match YYYY-MM-DD, got \"" ++ value.take 32 ++ js "\"")
  | .any => .ok ()

def ownerText (platform : SocialPlatform) (action : SocialAction) : JsString := platform.name ++ js " " ++ action.name

def validateAuxField (platform : SocialPlatform) (action : SocialAction) (allowed : Option AuxRule) (field : String) :
    JsValue → Except SocialError (Option JsString)
  | .undefined => .ok none
  | value => match allowed with
    | none => .error (invalid (ownerText platform action ++ js " does not support " ++ js field))
    | some rule => match value with
      | .string text => do
          refuse (text.length = 0) (js field ++ js " must be a non-empty string when provided")
          rule.admit (ownerText platform action) field text
          pure (some text)
      | _ => .error (invalid (js field ++ js " must be a non-empty string when provided"))

def resolveSocialLimit (maxLimit : Nat) : JsValue → Except SocialError Nat
  | .undefined => .ok (min defaultSocialLimit maxLimit)
  | .null => .ok (min defaultSocialLimit maxLimit)
  | .number (.int n) => if n < 1 ∨ n > maxLimit then .error (outside maxLimit) else .ok n.toNat
  | _ => .error (outside maxLimit)
where
  outside (maxLimit : Nat) : SocialError := invalid (js "limit must be an integer 1.." ++ js (toString maxLimit))

structure SocialRequest where
  platform : SocialPlatform
  action : SocialAction
  limit : Nat
  selectors : Selectors
  url : Option JsString
  feedVariant : Option JsString
  sort : Option JsString
  timeRange : Option JsString
  includeReplies : Option Bool
  deriving DecidableEq

def cleanSelector : JsValue → Option JsString
  | .string value => if trim value = [] then none else some (trim value)
  | _ => none

def socialRequestInputFields : List JsString := [js "platform",js "action",js "query",js "postId",js "commentId",js "user",js "community",
  js "topic",js "url",js "feedVariant",js "sort",js "timeRange",js "includeReplies",js "limit"]

def present : JsValue → Bool
  | .undefined => false
  | _ => true

def blank : JsValue → Bool
  | .string text => trim text = []
  | _ => false

def socialUrlHosts : SocialPlatform → List String
  | .twitter => ["twitter.com","x.com"]
  | .reddit => ["reddit.com","redd.it"]
  | .xiaohongshu => ["xiaohongshu.com","xhslink.com"]
  | .facebook => ["facebook.com","fb.com"]
  | .instagram => ["instagram.com"]
  | .v2ex => ["v2ex.com"]
  | .linkedin => ["linkedin.com"]

def twitterReservedPaths : List JsString := [js "search",js "home",js "explore",js "i",js "notifications",js "messages",js "settings",
  js "compose",js "intent",js "hashtag",js "jobs",js "privacy",js "tos",js "login",js "signup"]

def instagramReservedPaths : List JsString := [js "p",js "reel",js "tv",js "explore",js "stories",js "accounts",js "direct",js "about"]

/- Host names of http URLs and the names that are lowered here are ASCII. -/
def lowerUnit (u : UInt16) : UInt16 := if 65 ≤ u && u ≤ 90 then u + 32 else u

def alphanumeric (u : UInt16) : Bool := digit u || (65 ≤ u && u ≤ 90) || (97 ≤ u && u ≤ 122)

def hexId (text : JsString) : Bool :=
  text.length = 24 && text.all fun u => digit u || (65 ≤ u && u ≤ 70) || (97 ≤ u && u ≤ 102)

def withoutDot (host : JsString) : JsString := if host.getLast? = some 46 then host.dropLast else host

structure UrlClass where
  parse : UrlParser
  /- searchParams.get -/
  searchParam : Url → JsString → Option JsString

section
variable (web : UrlClass)

def parseCanonicalUrl (platform : SocialPlatform) (url : JsString) : Except SocialError Url := match web.parse url none with
  | none => .error (refused (js "url is not a valid URL: " ++ url.take 128))
  | some parsed =>
      if parsed.protocol ≠ Network.http ∧ parsed.protocol ≠ Network.https then
        .error (refused (js "url scheme must be http or https, got " ++ parsed.protocol))
      else if parsed.username ≠ [] ∨ parsed.password ≠ [] then .error (refused (js "url must not contain credentials"))
      else if parsed.port ≠ [] then .error (refused (js "url must use a default port, got :" ++ parsed.port))
      else
        let host := withoutDot (parsed.hostname.map lowerUnit)
        if (socialUrlHosts platform).any fun domain => host = js domain || (46 :: js domain).isSuffixOf host then .ok parsed
        else .error (refused (js "url host " ++ host ++ js " is not an allowed " ++ platform.name ++ js " domain"))
where
  refused (message : JsString) : SocialError := { code := .invalidRequest, message := message, platform := some platform }

/- The selectors of a known path shape, in the order of their entries. -/
def shapeSelectors (platform : SocialPlatform) (parsed : Url) (segments : List JsString) :
    Option (List (SocialSelectorField × JsString)) :=
  match platform with
  | .twitter =>
      let status := segments.dropWhile fun segment => segment ≠ js "status" && segment ≠ js "statuses"
      match status,segments with
      | _ :: id :: _,_ => some [(.postId,id)]
      | _,[first] =>
          if 1 ≤ first.length && first.length ≤ 15 && first.all (fun u => alphanumeric u || u = 95) && !twitterReservedPaths.contains first then
            some [(.user,first.map lowerUnit)]
          else none
      | _,_ => none
  | .reddit =>
      match segments with
      | first :: second :: rest =>
          if first = js "r" && rest.head? = some (js "comments") && rest[1]?.isSome then
            some ([(.community,second)] ++ (rest[1]?.map (SocialSelectorField.postId,·)).toList ++
              (rest[3]?.map (SocialSelectorField.commentId,·)).toList)
          else if first = js "comments" then some [(.postId,second)]
          else if first = js "r" && rest = [] then some [(.community,second)]
          else if (first = js "user" || first = js "u") && rest = [] then some [(.user,second)]
          else none
      | _ => none
  | .xiaohongshu =>
      match segments with
      | [first,second] => if first = js "explore" && hexId second then some [(.postId,second)] else none
      | [first,second,third] =>
          if first = js "discovery" && second = js "item" && hexId third then some [(.postId,third)]
          else if first = js "user" && second = js "profile" then some [(.user,third)]
          else none
      | _ => none
  | .facebook =>
      match segments with
      | [] => none
      | first :: rest =>
          if first = js "groups" && rest.length = 1 then rest.head?.map fun id => [(.community,id)]
          else if first = js "people" && rest.length = 2 then rest[1]?.map fun id => [(.user,id)]
          else match (if first = js "profile.php" then web.searchParam parsed (js "id") else none) with
            | some id => some [(.user,id)]
            | none =>
                if rest = [] && 5 ≤ first.length && first.all (fun u => alphanumeric u || u = 46) then some [(.user,first)] else none
  | .instagram =>
      match segments with
      | [first,second] => if first = js "p" || first = js "reel" || first = js "tv" then some [(.postId,second)] else none
      | [first] =>
          if 1 ≤ first.length && first.length ≤ 30 && first.all (fun u => alphanumeric u || u = 46 || u = 95) &&
              !instagramReservedPaths.contains first then some [(.user,first)]
          else none
      | _ => none
  | .v2ex =>
      match segments with
      | [first,second] =>
          if first = js "t" && second ≠ [] && second.all digit then some [(.postId,second),(.topic,second)]
          else if first = js "go" then some [(.community,second)]
          else if first = js "member" then some [(.user,second)]
          else none
      | _ => none
  | .linkedin =>
      match segments with
      | [first,second] => if first = js "in" then some [(.user,second)] else none
      | _ => none

/- `pathname.replace(/\/+$/,'')` -/
def unslashed (pathname : JsString) : JsString := (pathname.reverse.dropWhile (· = 47)).reverse

def extractSelectorsFromUrl (platform : SocialPlatform) (url : JsString) :
    Except SocialError (List (SocialSelectorField × JsString)) := do
  let parsed ← parseCanonicalUrl web platform url
  let path := unslashed parsed.pathname
  match shapeSelectors web platform parsed ((path.splitOn 47).filter (· ≠ [])) with
  | some extracted => .ok extracted
  | none => .error { code := .invalidRequest, message := js "unrecognized " ++ platform.name ++ js " URL shape: " ++ path.take 128,
                     platform := some platform }

def checkSelector (platform : SocialPlatform) (action : SocialAction) (input : JsValue) (field : SocialSelectorField) :
    Except SocialError Unit := do
  let raw := input.get field.name
  refuse (present raw && !(allowedDirectSelectors platform action).contains field)
    (ownerText platform action ++ js " does not support selector: " ++ js field.name)
  refuse (blank raw) (js field.name ++ js " must be a non-empty string when provided")
  refuse ((cleanSelector raw).any (·.length > maxSelectorLength))
    (js field.name ++ js " exceeds maximum length of " ++ js (toString maxSelectorLength))

/- The trimmed URL and what it says; a URL that is no string is passed over. -/
def urlSelectors (platform : SocialPlatform) : JsValue → Except SocialError (Option JsString × List (SocialSelectorField × JsString))
  | .string url => do
      refuse (trim url = []) (js "url must be a non-empty string when provided")
      let extracted ← extractSelectorsFromUrl web platform (trim url)
      pure (some (trim url),extracted)
  | _ => .ok (none,[])

def direct (input : JsValue) : Selectors := fun field => cleanSelector (input.get field.name)

/- Explicit values win; URL extraction fills missing fields. -/
def filled (own : Selectors) (extracted : List (SocialSelectorField × JsString)) : Selectors :=
  fun field => (own field).or (extracted.lookup field)

def derivedWarnings (own : Selectors) (extracted : List (SocialSelectorField × JsString)) : List JsString :=
  (extracted.filter fun entry => (own entry.1).isNone).map fun entry => js entry.1.name ++ js " derived from url"

def listed (fields : List SocialSelectorField) : JsString := (js ", ").intercalate (fields.map fun field => js field.name)

def requireSelectors (platform : SocialPlatform) (action : SocialAction) (selectors : Selectors) : Except SocialError Unit := do
  let spec := selectorSpecFor platform action
  let missing := spec.required.filter fun field => (selectors field).isNone
  refuse (missing ≠ []) (ownerText platform action ++ js " requires selector: " ++ listed missing)
  refuse (spec.anyOf.any fun fields => !fields.any fun field => (selectors field).isSome)
    (ownerText platform action ++ js " requires one of: " ++ listed (spec.anyOf.getD []))

def validateReplies (platform : SocialPlatform) (action : SocialAction) : JsValue → Except SocialError (Option Bool)
  | .undefined => .ok none
  | value =>
      if !(auxSpecFor platform action).includeReplies then
        .error (invalid (ownerText platform action ++ js " does not support includeReplies"))
      else match value with
        | .bool value => .ok (some value)
        | _ => .error (invalid (js "includeReplies must be a boolean when provided"))

def requestFields : JsValue → Except SocialError (List (JsString × JsValue))
  | .object fields => .ok fields
  | _ => .error (invalid (js "request must be an object"))

def checkFields (fields : List (JsString × JsValue)) : Except SocialError Unit :=
  match fields.find? fun field => !socialRequestInputFields.contains field.1 with
  | some field => .error (invalid (js "unknown request field: " ++ field.1.take 32))
  | none => .ok ()

def resolvePlatform (value : JsValue) : Except SocialError SocialPlatform := match value.asString.bind socialPlatformOf with
  | some platform => .ok platform
  | none => .error (invalid (js "Unsupported platform: " ++ (textOf value).take 32))

def resolveSocialAction (platform : SocialPlatform) (value : JsValue) : Except SocialError SocialAction :=
  match (value.asString.bind socialActionOf).filter (canonicalActionsFor platform).contains with
  | some action => .ok action
  | none => .error { code := .unsupportedAction, platform := some platform,
                     message := js "Unsupported " ++ platform.name ++ js " action: " ++ (textOf value).take 32 }

def validateSocialRequest (input : JsValue) : Except SocialError (SocialRequest × List JsString) := do
  let fields ← requestFields input
  checkFields fields
  let platform ← resolvePlatform (input.get "platform")
  let action ← resolveSocialAction platform (input.get "action")
  selectorFields.forM (checkSelector platform action input)
  let (url,extracted) ← urlSelectors web platform (input.get "url")
  let selectors := filled (direct input) extracted
  requireSelectors platform action selectors
  let limit ← resolveSocialLimit (selectorSpecFor platform action).maxLimit (input.get "limit")
  let aux := auxSpecFor platform action
  let feedVariant ← validateAuxField platform action aux.feedVariant "feedVariant" (input.get "feedVariant")
  let sort ← validateAuxField platform action aux.sort "sort" (input.get "sort")
  let timeRange ← validateAuxField platform action aux.timeRange "timeRange" (input.get "timeRange")
  let includeReplies ← validateReplies platform action (input.get "includeReplies")
  pure (⟨platform,action,limit,selectors,url,feedVariant,sort,timeRange,includeReplies⟩,derivedWarnings (direct input) extracted)

end
end Northstar.Social
