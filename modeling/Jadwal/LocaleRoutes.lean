import Jadwal.Auth
import Mathlib

/-!
# The routes of the site

The middleware of the pages decides for every request: the kill switch sends everything public to
the holding page, a public path is served in English as it stands and in Arabic under `/ar`, and
the pages of staff and of customers ask for a session.  Much of it answers with redirects, which
the browser follows with the same cookies; paths that look like files are kept from it by
`config.matcher` and are answered as they stand.  What is asked: no visitor is sent round in circles
(`redirects_end`), a link in a language lands on its page in that language (`locale_link_lands`),
nobody gets a page of others that the middleware runs for, by any chain of redirects and rewrites
(`pages_guarded`), and where `callbackUrl` can lead (`callback_leaves_site_iff`).
-/

namespace Jadwal

abbrev Pathname := List Char

inductive Lang
  | en | ar
  deriving DecidableEq, Repr

/-- `path === p || path.startsWith(p + '/')` -/
def under (p path : Pathname) : Bool := path = p || (p ++ ['/']).isPrefixOf path

/-- `NON_LOCALIZED_PREFIXES` -/
def nonLocalizedPrefixes : List Pathname :=
  ["/admin".toList, "/vendor".toList, "/login".toList, "/register".toList,
    "/forgot-password".toList, "/reset-password".toList, "/verify-email".toList,
    "/account".toList, "/my-account".toList, "/profile".toList, "/bookings".toList, "/cart".toList,
    "/favorites".toList, "/likes".toList, "/notifications".toList, "/payment".toList,
    "/maintenance".toList, "/api".toList, "/_next".toList]

def isLocalizablePath (path : Pathname) : Bool := ! nonLocalizedPrefixes.any (under · path)

def hasArPrefix (path : Pathname) : Bool := under "/ar".toList path

def stripLocalePrefix (path : Pathname) : Lang × Pathname :=
  if path = "/ar".toList then (.ar, ['/'])
  else if "/ar/".toList.isPrefixOf path then (.ar, path.drop 3)
  else (.en, path)

def localePath (path : Pathname) (lang : Lang) : Pathname :=
  if lang ≠ .ar then path
  else if hasArPrefix path || ! isLocalizablePath path then path
  else if path = ['/'] then "/ar".toList else "/ar".toList ++ path

/-- The path of a URL of the site, and the query parameter the middleware reads. -/
structure SiteUrl where
  pathname : Pathname
  callbackUrl : Option (List Char) := none
  deriving DecidableEq, Repr

/-- What the deployment fixes, and the parser of URLs: `resolve` is `new URL(raw, request.url)`
where that is a URL of the site, and `parseHost` the host of an authority, if it has one. -/
structure Site where
  launchDisabled : Bool
  allGuideSlugs : List (List Char)
  host : List Char
  parseHost : List Char → Option (List Char)
  resolve : List Char → SiteUrl

/-- The cookies of a browser: the language, and the session with the role its payload shows. -/
structure Visitor where
  cookieLang : Option Lang
  auth : Option (Option Role)
  deriving DecidableEq, Repr

inductive RouteAnswer
  | redirect (url : SiteUrl)
  /-- A redirect to another host. -/
  | leave (raw : List Char)
  /-- `new URL` throws. -/
  | fail
  /-- The page at `path`, with `LANG_HEADER` and whether the status is 404. -/
  | page (path : Pathname) (lang : Option Lang) (notFound : Bool)
  deriving DecidableEq, Repr

def isUnknownGuidePath (site : Site) (path : Pathname) : Bool :=
  if ! "/blog/".toList.isPrefixOf path then false
  else
    let slug := path.drop "/blog/".toList.length
    if slug.isEmpty || slug.contains '/' then ! slug.isEmpty
    else ! site.allGuideSlugs.contains slug

def isAllowedDuringKillswitch (path : Pathname) : Bool :=
  path = "/maintenance".toList ||
    ["/admin".toList, "/vendor".toList, "/login".toList, "/register".toList,
      "/forgot-password".toList, "/reset-password".toList, "/verify-email".toList].any
      (under · path)

def customerProtectedPaths : List Pathname :=
  ["/bookings".toList, "/profile".toList, "/my-account".toList, "/cart".toList,
    "/favorites".toList, "/notifications".toList, "/likes".toList, "/account".toList]

/-- The check of `callbackUrl`. -/
def isSafeCallback (raw : List Char) : Bool :=
  ['/'].isPrefixOf raw && ! ['/', '/'].isPrefixOf raw && ! ['/', '\\'].isPrefixOf raw &&
    ! raw.contains ':' && ! raw.contains '\\'

/-- A tab or a line break, which the parser of URLs drops wherever it stands. -/
def isTabOrNewline (c : Char) : Bool := c = '\t' || c = '\n' || c = '\r'

def isSlash (c : Char) : Bool := c = '/' || c = '\\'

/-- The authority after two slashes, without the user: further slashes are skipped, and so are
blanks and controls at the end of the text. -/
def authorityHost (rest : List Char) : List Char :=
  let text := (rest.reverse.dropWhile (fun c => c.toNat ≤ 32)).reverse
  let authority := (text.dropWhile isSlash).takeWhile
    (fun c => ! isSlash c && c ≠ '?' && c ≠ '#')
  (authority.reverse.takeWhile (· ≠ '@')).reverse

/-- What begins with `/` names a host when another slash follows. -/
def namedHost (raw : List Char) : Option (List Char) :=
  match raw.filter (fun c => ! isTabOrNewline c) with
  | a :: b :: rest => if isSlash a && isSlash b then some (authorityHost rest) else none
  | _ => none

/-- `new URL(raw, request.url)`, answered as a redirect. -/
def redirectTo (site : Site) (raw : List Char) : RouteAnswer :=
  match namedHost raw with
  | none => .redirect (site.resolve raw)
  | some authority =>
      match site.parseHost authority with
      | none => .fail
      | some host => if host = site.host then .redirect (site.resolve raw) else .leave raw

/-- The paths that are not public. -/
def sessionRoutes (site : Site) (v : Visitor) (u : SiteUrl) : RouteAnswer :=
  let next := RouteAnswer.page u.pathname none false
  if "/admin".toList.isPrefixOf u.pathname then
    if u.pathname = "/admin/login".toList then
      if v.auth = some (some .admin) then .redirect ⟨"/admin/dashboard".toList, none⟩ else next
    else if v.auth = none then .redirect ⟨"/admin/login".toList, none⟩
    else if v.auth ≠ some (some .admin) then .redirect ⟨['/'], none⟩
    else next
  else if "/vendor".toList.isPrefixOf u.pathname then
    if v.auth = none then .redirect ⟨"/register/vendor".toList, none⟩
    else if v.auth ≠ some (some .vendor) then .redirect ⟨['/'], none⟩
    else next
  else if customerProtectedPaths.any (under · u.pathname) then
    if v.auth = none then .redirect ⟨"/login".toList, some u.pathname⟩ else next
  else if u.pathname = "/login".toList ∧ v.auth ≠ none then
    let raw := u.callbackUrl.getD []
    redirectTo site (if isSafeCallback raw then raw else ['/'])
  else next

def middleware (site : Site) (v : Visitor) (u : SiteUrl) : RouteAnswer :=
  if site.launchDisabled && ! isAllowedDuringKillswitch u.pathname then
    .redirect ⟨"/maintenance".toList, none⟩
  else if hasArPrefix u.pathname then
    let underlying := (stripLocalePrefix u.pathname).2
    if ! isLocalizablePath underlying then .redirect { u with pathname := underlying }
    else .page underlying (some .ar) (isUnknownGuidePath site underlying)
  else if isLocalizablePath u.pathname then
    if v.cookieLang = some .ar then .redirect { u with pathname := localePath u.pathname .ar }
    else .page u.pathname (some .en) (isUnknownGuidePath site u.pathname)
  else sessionRoutes site v u

def RouteAnswer.isRedirect : RouteAnswer → Bool
  | .redirect _ => true
  | _ => false

/-- The endings `config.matcher` takes for files, wherever they stand. -/
def fileExtensions : List (List Char) :=
  [".png".toList, ".jpg".toList, ".jpeg".toList, ".gif".toList, ".webp".toList, ".svg".toList,
    ".ico".toList, ".css".toList, ".js".toList, ".woff".toList, ".woff2".toList, ".ttf".toList,
    ".eot".toList]

/-- `config.matcher`, without the slash: the dot of `favicon.ico` is any character. -/
def isExempt (rest : List Char) : Bool :=
  ["api".toList, "_next/static".toList, "_next/image".toList].any (·.isPrefixOf rest) ||
    ("favicon".toList.isPrefixOf rest && "ico".toList.isPrefixOf (rest.drop 8)) ||
    rest.tails.any (fun tail => fileExtensions.any (·.isPrefixOf tail))

/-- `config.matcher`: the paths the middleware runs for. -/
def isMatched : Pathname → Bool
  | '/' :: rest => ! isExempt rest
  | _ => false

/-- The answer of the site: a path that is not matched is served as it stands. -/
def respond (site : Site) (v : Visitor) (u : SiteUrl) : RouteAnswer :=
  if isMatched u.pathname then middleware site v u else .page u.pathname none false

/-- What the browser ends at, after that many redirects at most. -/
def follow (site : Site) (v : Visitor) : Nat → SiteUrl → RouteAnswer
  | 0, u => respond site v u
  | n + 1, u =>
      match respond site v u with
      | .redirect u' => follow site v n u'
      | answer => answer

section

variable {site : Site} {v : Visitor} {u u' : SiteUrl} {path p : Pathname} {lang : Lang}

theorem under_iff : under p path = true ↔ path = p ∨ p ++ ['/'] <+: path := by
  simp [under]

/-- A path is public when no private prefix holds it. -/
theorem isLocalizablePath_iff : isLocalizablePath path = true ↔
    ∀ p ∈ nonLocalizedPrefixes, under p path = false := by
  simp [isLocalizablePath]

/-- The Arabic pages: `/ar` and what lies under it. -/
theorem hasArPrefix_iff : hasArPrefix path = true ↔
    path = "/ar".toList ∨ ∃ rest, path = "/ar/".toList ++ rest := by
  unfold hasArPrefix
  rw [under_iff]
  constructor
  · intro h
    rcases h with h | ⟨rest, h⟩
    · exact .inl h
    · exact .inr ⟨rest, h.symm⟩
  · intro h
    rcases h with h | ⟨rest, h⟩
    · exact .inl h
    · exact .inr ⟨rest, h.symm⟩

theorem strip_prefixed (rest : Pathname) :
    stripLocalePrefix ("/ar/".toList ++ rest) = (.ar, '/' :: rest) := by
  simp [stripLocalePrefix]

/-- Paths begin with a slash. -/
theorem rooted_of_hasArPrefix (h : hasArPrefix path = true) : path.head? = some '/' := by
  rcases hasArPrefix_iff.mp h with rfl | ⟨rest, rfl⟩
  · rfl
  · rfl

/-- So they do without the prefix. -/
theorem strip_rooted (h : hasArPrefix path = true) :
    (stripLocalePrefix path).2.head? = some '/' := by
  rcases hasArPrefix_iff.mp h with rfl | ⟨rest, rfl⟩
  · rfl
  · rw [strip_prefixed]
    rfl

/-- No path that is kept out of `/ar` lies under it. -/
theorem localizable_of_hasArPrefix (h : hasArPrefix path = true) :
    isLocalizablePath path = true := by
  have happart : ∀ p ∈ nonLocalizedPrefixes,
      ¬ "/ar/".toList <+: p ++ ['/'] ∧ ¬ p ++ ['/'] <+: "/ar/".toList := by decide
  rw [isLocalizablePath_iff]
  intro p hp
  rcases hasArPrefix_iff.mp h with rfl | ⟨rest, rfl⟩
  · revert p
    decide
  · apply Bool.eq_false_iff.mpr
    intro hunder
    rcases under_iff.mp hunder with rfl | hpre
    · apply (happart _ hp).1
      rw [List.append_assoc]
      exact List.prefix_append ..
    · rcases List.prefix_or_prefix_of_prefix hpre (List.prefix_append "/ar/".toList rest) with
        hle | hle
      · exact (happart _ hp).2 hle
      · exact (happart _ hp).1 hle

/-- The Arabic twin of a public path is the path under `/ar`. -/
theorem strip_localePath (hlocal : isLocalizablePath path = true)
    (hplain : hasArPrefix path = false) (hroot : path.head? = some '/') :
    hasArPrefix (localePath path .ar) = true ∧
      stripLocalePrefix (localePath path .ar) = (.ar, path) := by
  obtain ⟨rest, rfl⟩ : ∃ rest, path = '/' :: rest := by
    cases path with
    | nil => cases hroot
    | cons c rest =>
        obtain rfl := Option.some.inj hroot
        exact ⟨rest, rfl⟩
  have hpath : localePath ('/' :: rest) .ar =
      if '/' :: rest = ['/'] then "/ar".toList else "/ar/".toList ++ rest := by
    unfold localePath
    simp [hplain, hlocal]
  rw [hpath]
  split
  case isTrue hrest =>
    rw [hrest]
    exact ⟨by decide, by decide⟩
  case isFalse hrest => exact ⟨hasArPrefix_iff.mpr (.inr ⟨rest, rfl⟩), strip_prefixed rest⟩

/-- A page that is neither of staff nor of customers. -/
theorem sessionRoutes_open {callbackUrl : Option (List Char)}
    (hadmin : "/admin".toList.isPrefixOf path = false)
    (hvendor : "/vendor".toList.isPrefixOf path = false)
    (hcustomer : customerProtectedPaths.any (under · path) = false)
    (hlogin : path ≠ "/login".toList ∨ v.auth = none) :
    sessionRoutes site v ⟨path, callbackUrl⟩ = .page path none false := by
  have hnot : ¬ (path = "/login".toList ∧ v.auth ≠ none) := by
    intro h
    rcases hlogin with hne | hnone
    · exact hne h.1
    · exact h.2 hnone
  simp only [sessionRoutes, hadmin, hvendor, hcustomer, Bool.false_eq_true, if_false, if_neg hnot]

/-- The kill switch and the languages leave the path alone. -/
theorem middleware_session {callbackUrl : Option (List Char)} (hplain : hasArPrefix path = false)
    (hlocal : isLocalizablePath path = false) (hallowed : isAllowedDuringKillswitch path = true) :
    middleware site v ⟨path, callbackUrl⟩ = sessionRoutes site v ⟨path, callbackUrl⟩ := by
  simp [middleware, hplain, hlocal, hallowed]

/-- The holding page, the registration of vendors and, without a session, the login form are
shown. -/
theorem open_page {callbackUrl : Option (List Char)}
    (h : path = "/maintenance".toList ∨ path = "/register/vendor".toList ∨
      (path = "/login".toList ∧ v.auth = none)) :
    middleware site v ⟨path, callbackUrl⟩ = .page path none false := by
  rcases h with rfl | rfl | ⟨rfl, hnone⟩
  · rw [middleware_session (by decide) (by decide) (by decide)]
    exact sessionRoutes_open (by decide) (by decide) (by decide) (.inl (by decide))
  · rw [middleware_session (by decide) (by decide) (by decide)]
    exact sessionRoutes_open (by decide) (by decide) (by decide) (.inl (by decide))
  · rw [middleware_session (by decide) (by decide) (by decide)]
    exact sessionRoutes_open (by decide) (by decide) (by decide) (.inr hnone)

/-- What the staff may see is shown. -/
theorem sessionRoutes_admin {callbackUrl : Option (List Char)}
    (hadmin : "/admin".toList.isPrefixOf path = true)
    (h : path = "/admin/login".toList ∧ v.auth ≠ some (some .admin) ∨
      path ≠ "/admin/login".toList ∧ v.auth = some (some .admin)) :
    sessionRoutes site v ⟨path, callbackUrl⟩ = .page path none false := by
  rcases h with ⟨hpath, hauth⟩ | ⟨hpath, hauth⟩
  · simp only [sessionRoutes, hadmin, if_true, if_pos hpath, if_neg hauth]
  · simp only [sessionRoutes, hadmin, if_true, if_neg hpath, hauth, reduceCtorEq, if_false, ne_eq,
      not_true]

/-- The login form of the staff, and their dashboard. -/
theorem admin_page {callbackUrl : Option (List Char)}
    (h : path = "/admin/login".toList ∧ v.auth ≠ some (some .admin) ∨
      path = "/admin/dashboard".toList ∧ v.auth = some (some .admin)) :
    middleware site v ⟨path, callbackUrl⟩ = .page path none false := by
  rcases h with ⟨rfl, hauth⟩ | ⟨rfl, hauth⟩
  · rw [middleware_session (by decide) (by decide) (by decide)]
    exact sessionRoutes_admin (by decide) (.inl ⟨rfl, hauth⟩)
  · rw [middleware_session (by decide) (by decide) (by decide)]
    exact sessionRoutes_admin (by decide) (.inr ⟨by decide, hauth⟩)

/-- How many callbacks can still be followed. -/
def callbackRank (u : SiteUrl) : Nat := u.callbackUrl.elim 0 (fun raw => raw.length + 1)

/-- How many redirects a path can still lead through. -/
def pathRank (path : Pathname) : Nat :=
  if hasArPrefix path then if isLocalizablePath (stripLocalePrefix path).2 then 1 else 4
  else if isLocalizablePath path then 2 else 3

/-- What is relied on of `new URL`: the root is the root, every path has one, and a callback
within a callback is shorter than the whole. -/
structure Site.Resolves (site : Site) : Prop where
  home : site.resolve ['/'] = ⟨['/'], none⟩
  rooted : ∀ raw, (site.resolve raw).pathname.head? = some '/'
  shorter : ∀ raw c, (site.resolve raw).callbackUrl = some c → c.length < raw.length

/-- A callback is no longer than the text it is read from. -/
theorem Site.Resolves.callbackRank_le (h : site.Resolves) (raw : List Char) :
    callbackRank (site.resolve raw) ≤ raw.length := by
  unfold callbackRank
  cases hc : (site.resolve raw).callbackUrl with
  | none => exact Nat.zero_le _
  | some c => exact h.shorter raw c hc

/-- A redirect shows no page. -/
theorem redirectTo_ne_page {raw : List Char} {lang : Option Lang} {notFound : Bool} :
    redirectTo site raw ≠ .page path lang notFound := by
  intro h
  unfold redirectTo at h
  split at h
  · cases h
  · split at h
    · cases h
    · split at h <;> cases h

/-- The site is left for a host of another name. -/
theorem redirectTo_leave {raw raw' : List Char} :
    redirectTo site raw = .leave raw' ↔ raw = raw' ∧
      ∃ authority host, namedHost raw = some authority ∧
        site.parseHost authority = some host ∧ host ≠ site.host := by
  unfold redirectTo
  cases hnamed : namedHost raw with
  | none => simp
  | some authority =>
      cases hhost : site.parseHost authority with
      | none => simp [hhost]
      | some host =>
          by_cases hown : host = site.host
          · simp [hhost, hown]
          · simp [hhost, hown]

/-- A redirect on the site goes where the parser says. -/
theorem redirectTo_eq {raw : List Char} (h : redirectTo site raw = .redirect u') :
    u' = site.resolve raw := by
  unfold redirectTo at h
  split at h
  · exact (RouteAnswer.redirect.inj h).symm
  · split at h
    · cases h
    · split at h
      · exact (RouteAnswer.redirect.inj h).symm
      · cases h

/-- For a matched path the middleware answers. -/
theorem respond_eq (h : isMatched u.pathname = true) : respond site v u = middleware site v u :=
  if_pos h

/-- What is served as it stands is settled. -/
theorem respond_settled (h : (middleware site v u).isRedirect = false) :
    (respond site v u).isRedirect = false := by
  unfold respond
  split
  · exact h
  · rfl

/-- Only the middleware redirects. -/
theorem middleware_of_respond (h : respond site v u = .redirect u') :
    middleware site v u = .redirect u' := by
  unfold respond at h
  split at h
  · exact h
  · cases h

/-- A redirect settles the visitor, or leads to a path with fewer redirects ahead, or uses up a
callback. -/
def Progress (site : Site) (v : Visitor) (u u' : SiteUrl) : Prop :=
  u'.pathname.head? = some '/' ∧ ((respond site v u').isRedirect = false ∨
    (callbackRank u' ≤ callbackRank u ∧ pathRank u'.pathname < pathRank u.pathname) ∨
    callbackRank u' < callbackRank u)

/-- What the login form makes of a callback uses it up, or leads to the front page. -/
theorem callback_progress (hsite : site.Resolves) (hhome : pathRank ['/'] < pathRank u.pathname) :
    Progress site v u (site.resolve (if isSafeCallback (u.callbackUrl.getD []) then
      u.callbackUrl.getD [] else ['/'])) := by
  split
  case isTrue hsafe =>
    refine ⟨hsite.rooted _, .inr (.inr ?_)⟩
    cases hc : u.callbackUrl with
    | none =>
        rw [hc] at hsafe
        exact absurd hsafe (by decide)
    | some raw =>
        have hle := hsite.callbackRank_le raw
        have hrank : callbackRank u = raw.length + 1 := by simp [callbackRank, hc]
        rw [hrank]
        exact Nat.lt_succ_of_le hle
  case isFalse =>
    rw [hsite.home]
    exact ⟨rfl, .inr (.inl ⟨Nat.zero_le _, hhome⟩)⟩

/-- The redirects for a session settle the visitor, or lead to a public path, or use up a
callback. -/
theorem sessionRoutes_redirect (hsite : site.Resolves)
    (hlocal : isLocalizablePath u.pathname = false) (hplain : hasArPrefix u.pathname = false)
    (h : sessionRoutes site v u = .redirect u') :
    Progress site v u u' := by
  have hhome : callbackRank ⟨['/'], none⟩ ≤ callbackRank u ∧
      pathRank ['/'] < pathRank u.pathname := by
    refine ⟨Nat.zero_le _, ?_⟩
    have hrank : pathRank u.pathname = 3 := by simp [pathRank, hlocal, hplain]
    rw [hrank]
    decide
  unfold sessionRoutes at h
  split at h
  · split at h
    · split at h
      case isTrue hadmin =>
        cases h
        exact ⟨rfl, .inl (respond_settled (by rw [admin_page (.inr ⟨rfl, hadmin⟩)]; rfl))⟩
      case isFalse => cases h
    · split at h
      case isTrue hnone =>
        cases h
        exact ⟨rfl, .inl (respond_settled
          (by rw [admin_page (.inl ⟨rfl, by simp [hnone]⟩)]; rfl))⟩
      case isFalse =>
        split at h
        · cases h
          exact ⟨rfl, .inr (.inl hhome)⟩
        · cases h
  · split at h
    · split at h
      · cases h
        exact ⟨rfl, .inl (respond_settled (by rw [open_page (.inr (.inl rfl))]; rfl))⟩
      · split at h
        · cases h
          exact ⟨rfl, .inr (.inl hhome)⟩
        · cases h
    · split at h
      · split at h
        case isTrue hnone =>
          cases h
          exact ⟨rfl, .inl (respond_settled
            (by rw [open_page (.inr (.inr ⟨rfl, hnone⟩))]; rfl))⟩
        case isFalse => cases h
      · split at h
        · have hu := redirectTo_eq h
          subst hu
          exact callback_progress hsite hhome.2
        · cases h

/-- **Every redirect makes progress.** -/
theorem middleware_redirect (hsite : site.Resolves) (hroot : u.pathname.head? = some '/')
    (h : middleware site v u = .redirect u') :
    Progress site v u u' := by
  unfold middleware at h
  split at h
  · cases h
    exact ⟨rfl, .inl (respond_settled (by rw [open_page (.inl rfl)]; rfl))⟩
  · split at h
    case isTrue hpre =>
      simp only at h
      split at h
      case isTrue hlocal =>
        cases h
        refine ⟨strip_rooted hpre, .inr (.inl ⟨le_rfl, ?_⟩)⟩
        rw [Bool.not_eq_true'] at hlocal
        have hplain : hasArPrefix (stripLocalePrefix u.pathname).2 = false := by
          apply Bool.eq_false_iff.mpr
          intro hp
          rw [localizable_of_hasArPrefix hp] at hlocal
          cases hlocal
        simp [pathRank, hpre, hlocal, hplain]
      case isFalse => cases h
    case isFalse hpre =>
      have hplain := Bool.eq_false_iff.mpr hpre
      split at h
      case isTrue hlocal =>
        split at h
        · cases h
          obtain ⟨hpred, hstrip⟩ := strip_localePath hlocal hplain hroot
          refine ⟨rooted_of_hasArPrefix hpred, .inr (.inl ⟨le_rfl, ?_⟩)⟩
          simp [pathRank, hpred, hstrip, hlocal, hplain]
        · cases h
      case isFalse hlocal =>
        exact sessionRoutes_redirect hsite (Bool.eq_false_iff.mpr hlocal) hplain h

/-- How many redirects can still follow. -/
def redirectRank (site : Site) (v : Visitor) (u : SiteUrl) : Nat :=
  if (respond site v u).isRedirect then 5 * callbackRank u + pathRank u.pathname else 0

theorem pathRank_bounds (path : Pathname) : 1 ≤ pathRank path ∧ pathRank path ≤ 4 := by
  unfold pathRank
  split
  · split <;> decide
  · split <;> decide

/-- **Every redirect lowers the rank.** -/
theorem redirectRank_lt (hsite : site.Resolves) (hroot : u.pathname.head? = some '/')
    (h : respond site v u = .redirect u') : redirectRank site v u' < redirectRank site v u := by
  have hu : redirectRank site v u = 5 * callbackRank u + pathRank u.pathname := by
    simp [redirectRank, h, RouteAnswer.isRedirect]
  have hbounds := pathRank_bounds u.pathname
  have hbounds' := pathRank_bounds u'.pathname
  have hle : redirectRank site v u' ≤ 5 * callbackRank u' + pathRank u'.pathname := by
    unfold redirectRank
    split
    · exact le_rfl
    · exact Nat.zero_le _
  rw [hu]
  rcases (middleware_redirect hsite hroot (middleware_of_respond h)).2 with
    hsettled | ⟨hcallback, hpath⟩ | hcallback
  · have hzero : redirectRank site v u' = 0 := by simp [redirectRank, hsettled]
    omega
  · omega
  · omega

theorem follow_succ (n : Nat) : follow site v (n + 1) u =
    match respond site v u with
    | .redirect u' => follow site v n u'
    | answer => answer := rfl

/-- So as many redirects as the rank end the chain. -/
theorem follow_settles (hsite : site.Resolves) (hroot : u.pathname.head? = some '/') {n : Nat}
    (hn : redirectRank site v u ≤ n) : (follow site v n u).isRedirect = false := by
  induction n generalizing u with
  | zero =>
      apply Bool.eq_false_iff.mpr
      intro hredirect
      have hpos := (pathRank_bounds u.pathname).1
      simp only [redirectRank, follow] at hn hredirect
      rw [if_pos hredirect] at hn
      omega
  | succ n ih =>
      rw [follow_succ]
      cases h : respond site v u with
      | redirect u' =>
          have hlt := redirectRank_lt hsite hroot h
          exact ih (middleware_redirect hsite hroot (middleware_of_respond h)).1 (by omega)
      | leave raw => rfl
      | fail => rfl
      | page path lang notFound => rfl

/-- **No redirect goes round in circles**: whatever the cookies, the path and the callback, after
four redirects, and with a callback five for each of its characters and five more, the browser has
a page. -/
theorem redirects_end (hsite : site.Resolves) (hroot : u.pathname.head? = some '/') :
    ∃ n ≤ 5 * callbackRank u + 4, (follow site v n u).isRedirect = false := by
  refine ⟨5 * callbackRank u + 4, le_rfl, follow_settles hsite hroot ?_⟩
  have hbounds := pathRank_bounds u.pathname
  unfold redirectRank
  split
  · omega
  · exact Nat.zero_le _

/-- A parser of URLs without escapes. -/
def plainResolve (raw : List Char) : SiteUrl :=
  let query := raw.dropWhile (· ≠ '?')
  { pathname := '/' :: (raw.takeWhile (· ≠ '?')).drop 1
    callbackUrl :=
      if "?callbackUrl=".toList.isPrefixOf query then some (query.drop 13) else none }

/-- A parser of plain host names. -/
def plainHost (authority : List Char) : Option (List Char) :=
  if authority ≠ [] ∧ authority.all (fun c => c.isAlphanum || c = '.' || c = '-') then
    some (authority.map Char.toLower)
  else none

/-- A site that is open. -/
def openSite : Site where
  launchDisabled := false
  allGuideSlugs := ["best-dhow-cruises".toList]
  host := "jadwal.qa".toList
  parseHost := plainHost
  resolve := plainResolve

theorem openSite_resolves : openSite.Resolves where
  home := by decide
  rooted _ := rfl
  shorter raw c h := by
    simp only [openSite, plainResolve, Option.ite_none_right_eq_some, Option.some.injEq] at h
    obtain ⟨hpre, rfl⟩ := h
    have hle := (List.isPrefixOf_iff_prefix.mp hpre).length_le
    have hsub := (List.dropWhile_sublist (l := raw) (fun c => decide (c ≠ '?'))).length_le
    have hlen : "?callbackUrl=".toList.length = 13 := by decide
    simp only [List.length_drop]
    omega

/-- An admin, reading Arabic, whose login link carries a login link. -/
theorem redirects_end_nested :
    ∃ n ≤ 5 * callbackRank ⟨"/ar/login".toList, some "/login?callbackUrl=/vendor".toList⟩ + 4,
      (follow openSite ⟨some .ar, some (some .admin)⟩ n
        ⟨"/ar/login".toList, some "/login?callbackUrl=/vendor".toList⟩).isRedirect = false :=
  redirects_end openSite_resolves rfl

/-- A path that is matched is matched under `/ar` too. -/
theorem isMatched_localePath (hmatched : isMatched path = true) :
    isMatched (localePath path lang) = true := by
  have hcases : localePath path lang = path ∨ localePath path lang = "/ar".toList ∨
      localePath path lang = "/ar".toList ++ path := by
    unfold localePath
    split
    · exact .inl rfl
    · split
      · exact .inl rfl
      · split
        · exact .inr (.inl rfl)
        · exact .inr (.inr rfl)
  rcases hcases with h | h | h
  · rwa [h]
  · rw [h]
    decide
  · rw [h]
    unfold isMatched at hmatched
    split at hmatched
    case h_2 => cases hmatched
    case h_1 rest =>
      -- no ending begins in the prefix
      have hfiles : ∀ c tail, c ≠ '.' → fileExtensions.any (·.isPrefixOf (c :: tail)) = false := by
        intro c tail hc
        simp [fileExtensions, List.isPrefixOf, Ne.symm hc]
      have hexempt : isExempt ("ar/".toList ++ rest) =
          rest.tails.any (fun tail => fileExtensions.any (·.isPrefixOf tail)) := by
        simp [isExempt, hfiles]
      change (! isExempt ("ar/".toList ++ rest)) = true
      rw [hexempt]
      simp only [isExempt, Bool.not_or, Bool.and_eq_true] at hmatched
      exact hmatched.2

/-- **A link in a language lands there**: the path of a public page in a language answers with
that page in that language, save that a visitor who prefers Arabic gets Arabic. -/
theorem locale_link_lands (hlaunched : site.launchDisabled = false)
    (hmatched : isMatched path = true) (hlocal : isLocalizablePath path = true)
    (hplain : hasArPrefix path = false)
    (hroot : path.head? = some '/') (callbackUrl : Option (List Char)) :
    follow site v 1 ⟨localePath path lang, callbackUrl⟩ =
      .page path (some (if lang = .ar ∨ v.cookieLang = some .ar then .ar else .en))
        (isUnknownGuidePath site path) := by
  obtain ⟨hpred, hstrip⟩ := strip_localePath hlocal hplain hroot
  have harabic : respond site v ⟨localePath path .ar, callbackUrl⟩ =
      .page path (some .ar) (isUnknownGuidePath site path) := by
    rw [respond_eq (show isMatched (localePath path .ar) = true from isMatched_localePath hmatched)]
    simp [middleware, hlaunched, hpred, hstrip, hlocal]
  rw [follow_succ]
  cases lang with
  | ar =>
      rw [harabic]
      simp
  | en =>
      have hpath : localePath path .en = path := by simp [localePath]
      rw [hpath]
      by_cases hcookie : v.cookieLang = some .ar
      · have hredirect : respond site v ⟨path, callbackUrl⟩ =
            .redirect ⟨localePath path .ar, callbackUrl⟩ := by
          rw [respond_eq hmatched]
          simp [middleware, hlaunched, hplain, hlocal, hcookie]
        rw [hredirect]
        simp only [follow, harabic, hcookie, or_true, if_true]
      · have hpage : respond site v ⟨path, callbackUrl⟩ =
            .page path (some .en) (isUnknownGuidePath site path) := by
          rw [respond_eq hmatched]
          simp [middleware, hlaunched, hplain, hlocal, hcookie]
        rw [hpage]
        simp [hcookie]

theorem locale_link_lands_explore :
    follow openSite ⟨none, none⟩ 1 ⟨"/ar/explore".toList, none⟩ =
      .page "/explore".toList (some .ar) false :=
  @locale_link_lands openSite ⟨none, none⟩ "/explore".toList .ar rfl (by decide) (by decide)
    (by decide) rfl none

/-- What a page asks of the visitor who sees it. -/
structure PageAllowed (site : Site) (v : Visitor) (path : Pathname) : Prop where
  admin : under "/admin".toList path = true →
    path = "/admin/login".toList ∨ v.auth = some (some .admin)
  vendor : under "/vendor".toList path = true → v.auth = some (some .vendor)
  customer : customerProtectedPaths.any (under · path) = true → v.auth ≠ none
  launched : site.launchDisabled = true → isAllowedDuringKillswitch path = true

/-- A public path is under no private prefix. -/
theorem not_under_of_localizable (h : isLocalizablePath path = true)
    (hp : p ∈ nonLocalizedPrefixes) : under p path = false :=
  isLocalizablePath_iff.mp h p hp

/-- What stays open during the kill switch is not public. -/
theorem not_localizable_of_allowed (h : isAllowedDuringKillswitch path = true) :
    isLocalizablePath path = false := by
  have hlisted : ∀ p ∈ ["/maintenance".toList, "/admin".toList, "/vendor".toList, "/login".toList,
      "/register".toList, "/forgot-password".toList, "/reset-password".toList,
      "/verify-email".toList], p ∈ nonLocalizedPrefixes := by decide
  apply Bool.eq_false_iff.mpr
  intro hlocal
  rw [isAllowedDuringKillswitch, Bool.or_eq_true, decide_eq_true_eq, List.any_eq_true] at h
  rcases h with rfl | ⟨p, hp, hunder⟩
  · revert hlocal
    decide
  · rw [not_under_of_localizable hlocal (hlisted p (List.mem_cons_of_mem _ hp))] at hunder
    cases hunder

/-- A public page asks for nothing but an open site. -/
theorem PageAllowed.of_localizable (h : isLocalizablePath path = true)
    (hlaunched : site.launchDisabled = false) : PageAllowed site v path where
  admin hunder := by
    rw [not_under_of_localizable h (by decide)] at hunder
    cases hunder
  vendor hunder := by
    rw [not_under_of_localizable h (by decide)] at hunder
    cases hunder
  customer hany := by
    have hlisted : ∀ p ∈ customerProtectedPaths, p ∈ nonLocalizedPrefixes := by decide
    obtain ⟨p, hp, hunder⟩ := List.any_eq_true.mp hany
    rw [not_under_of_localizable h (hlisted p hp)] at hunder
    cases hunder
  launched hdisabled := by
    rw [hlaunched] at hdisabled
    cases hdisabled

theorem isPrefixOf_of_under (h : under p path = true) : p.isPrefixOf path = true := by
  rw [List.isPrefixOf_iff_prefix]
  rcases under_iff.mp h with rfl | hpre
  · exact List.prefix_rfl
  · exact (List.prefix_append p ['/']).trans hpre

/-- Of the paths that begin so, each begins with one of the two. -/
theorem apart_of_prefix (h : "/admin".toList.isPrefixOf path = true) :
    under "/vendor".toList path = false ∧ customerProtectedPaths.any (under · path) = false := by
  have happart : ∀ p ∈ "/vendor".toList :: customerProtectedPaths,
      ¬ "/admin".toList <+: p ∧ ¬ p <+: "/admin".toList := by decide
  have hnot : ∀ p ∈ "/vendor".toList :: customerProtectedPaths, under p path = false := by
    intro p hp
    apply Bool.eq_false_iff.mpr
    intro hunder
    rcases List.prefix_or_prefix_of_prefix (List.isPrefixOf_iff_prefix.mp h)
      (List.isPrefixOf_iff_prefix.mp (isPrefixOf_of_under hunder)) with hle | hle
    · exact (happart p hp).1 hle
    · exact (happart p hp).2 hle
  refine ⟨hnot _ List.mem_cons_self, ?_⟩
  rw [List.any_eq_false]
  intro p hp
  rw [hnot p (List.mem_cons_of_mem _ hp)]
  exact Bool.false_ne_true

/-- The pages of the vendors are not those of the customers. -/
theorem apart_of_vendor_prefix (h : "/vendor".toList.isPrefixOf path = true) :
    customerProtectedPaths.any (under · path) = false := by
  have happart : ∀ p ∈ customerProtectedPaths,
      ¬ "/vendor".toList <+: p ∧ ¬ p <+: "/vendor".toList := by decide
  rw [List.any_eq_false]
  intro p hp hunder
  rcases List.prefix_or_prefix_of_prefix (List.isPrefixOf_iff_prefix.mp h)
    (List.isPrefixOf_iff_prefix.mp (isPrefixOf_of_under hunder)) with hle | hle
  · exact (happart p hp).1 hle
  · exact (happart p hp).2 hle

/-- The pages that are not public are shown to whom they are for. -/
theorem PageAllowed.of_session {lang : Option Lang} {notFound : Bool}
    (h : sessionRoutes site v u = .page path lang notFound)
    (hallowed : site.launchDisabled = true → isAllowedDuringKillswitch u.pathname = true) :
    PageAllowed site v path := by
  have hnext : RouteAnswer.page u.pathname none false = .page path lang notFound →
      path = u.pathname := by
    intro heq
    exact (RouteAnswer.page.inj heq).1.symm
  unfold sessionRoutes at h
  split at h
  case isTrue hadmin =>
    obtain ⟨hvendor, hcustomer⟩ := apart_of_prefix hadmin
    have hpage : (u.pathname = "/admin/login".toList ∨ v.auth = some (some .admin)) →
        path = u.pathname → PageAllowed site v path := by
      intro hwho hpath
      subst hpath
      refine ⟨fun _ => hwho, fun hunder => ?_, fun hany => ?_, hallowed⟩
      · rw [hvendor] at hunder
        cases hunder
      · rw [hcustomer] at hany
        cases hany
    split at h
    case isTrue hlogin =>
      split at h
      · cases h
      · exact hpage (.inl hlogin) (hnext h)
    case isFalse =>
      split at h
      · cases h
      · split at h
        case isTrue => cases h
        case isFalse hrole => exact hpage (.inr (not_not.mp hrole)) (hnext h)
  case isFalse hadmin =>
    have hnoAdmin : ∀ {q : Prop}, under "/admin".toList u.pathname = true → q := by
      intro q hunder
      exact absurd (isPrefixOf_of_under hunder) hadmin
    split at h
    case isTrue hvendor =>
      have hcustomer := apart_of_vendor_prefix hvendor
      split at h
      · cases h
      · split at h
        case isTrue => cases h
        case isFalse hrole =>
          obtain rfl := hnext h
          refine ⟨hnoAdmin, fun _ => not_not.mp hrole, fun hany => ?_, hallowed⟩
          rw [hcustomer] at hany
          cases hany
    case isFalse hvendor =>
      have hnoVendor : ∀ {q : Prop}, under "/vendor".toList u.pathname = true → q := by
        intro q hunder
        exact absurd (isPrefixOf_of_under hunder) hvendor
      split at h
      case isTrue =>
        split at h
        case isTrue => cases h
        case isFalse hsession =>
          obtain rfl := hnext h
          exact ⟨hnoAdmin, hnoVendor, fun _ => hsession, hallowed⟩
      case isFalse hcustomer =>
        split at h
        case isTrue => exact absurd h redirectTo_ne_page
        case isFalse =>
          obtain rfl := hnext h
          exact ⟨hnoAdmin, hnoVendor, fun hany => absurd hany hcustomer, hallowed⟩

/-- **The middleware shows only what the session allows.** -/
theorem PageAllowed.of_middleware {lang : Option Lang} {notFound : Bool}
    (h : middleware site v u = .page path lang notFound) : PageAllowed site v path := by
  unfold middleware at h
  split at h
  case isTrue => cases h
  case isFalse hkill =>
    have hallowed : site.launchDisabled = true → isAllowedDuringKillswitch u.pathname = true := by
      intro hdisabled
      simpa [hdisabled] using hkill
    have hlaunched : isLocalizablePath u.pathname = true → site.launchDisabled = false := by
      intro hlocal
      apply Bool.eq_false_iff.mpr
      intro hdisabled
      rw [not_localizable_of_allowed (hallowed hdisabled)] at hlocal
      cases hlocal
    split at h
    case isTrue hpre =>
      simp only at h
      split at h
      case isTrue => cases h
      case isFalse hlocal =>
        obtain ⟨rfl, _⟩ := RouteAnswer.page.inj h
        rw [Bool.not_eq_true', Bool.not_eq_false] at hlocal
        exact .of_localizable hlocal (hlaunched (localizable_of_hasArPrefix hpre))
    case isFalse =>
      split at h
      case isTrue hlocal =>
        split at h
        · cases h
        · obtain ⟨rfl, _⟩ := RouteAnswer.page.inj h
          exact .of_localizable hlocal (hlaunched hlocal)
      case isFalse => exact .of_session h hallowed

/-- So does the site, but for files. -/
theorem PageAllowed.of_respond {lang : Option Lang} {notFound : Bool}
    (h : respond site v u = .page path lang notFound) (hmatched : isMatched path = true) :
    PageAllowed site v path := by
  unfold respond at h
  split at h
  case isTrue => exact .of_middleware h
  case isFalse hexempt =>
    obtain ⟨rfl, _⟩ := RouteAnswer.page.inj h
    exact absurd hmatched hexempt

/-- **Nobody gets a page of others**: whatever redirects and rewrites lead to it, of the pages the
middleware runs for one of the staff is shown to an admin, one of the vendors to a vendor and one
of a customer to a session, and while the site is closed none is shown that stays closed. -/
theorem pages_guarded {n : Nat} {lang : Option Lang} {notFound : Bool}
    (hmatched : isMatched path = true) (h : follow site v n u = .page path lang notFound) :
    PageAllowed site v path := by
  induction n generalizing u with
  | zero => exact .of_respond h hmatched
  | succ n ih =>
      rw [follow_succ] at h
      cases hanswer : respond site v u with
      | redirect u' =>
          rw [hanswer] at h
          exact ih h
      | leave raw =>
          rw [hanswer] at h
          cases h
      | fail =>
          rw [hanswer] at h
          cases h
      | page path' lang' notFound' =>
          rw [hanswer] at h
          obtain ⟨rfl, _⟩ := RouteAnswer.page.inj h
          exact .of_respond hanswer hmatched

theorem pages_guarded_dashboard : PageAllowed openSite ⟨none, some (some .admin)⟩
    "/admin/dashboard".toList :=
  @pages_guarded openSite ⟨none, some (some .admin)⟩ ⟨"/ar/admin/login".toList, none⟩ _ 2 none false
    (by decide) (by decide)

/-- The check of a callback, as the texts it takes. -/
theorem isSafeCallback_iff {raw : List Char} : isSafeCallback raw = true ↔
    (∃ rest, raw = '/' :: rest ∧ rest.head? ≠ some '/') ∧ ':' ∉ raw ∧ '\\' ∉ raw := by
  unfold isSafeCallback
  cases raw with
  | nil => simp
  | cons c rest =>
      cases rest with
      | nil =>
          by_cases hc : c = '/'
          · subst hc
            simp
          · simp [hc, Ne.symm hc]
      | cons d rest =>
          simp only [List.isPrefixOf_cons_cons, List.isPrefixOf_nil_left, Bool.and_true,
            Bool.and_eq_true, Bool.not_eq_true', beq_iff_eq, List.contains_eq_mem,
            decide_eq_false_iff_not, List.cons.injEq]
          constructor
          · intro h
            obtain ⟨⟨⟨⟨rfl, hslash⟩, _⟩, hcolon⟩, hback⟩ := h
            refine ⟨⟨_, ⟨rfl, rfl⟩, ?_⟩, hcolon, hback⟩
            intro hhead
            obtain rfl := Option.some.inj hhead
            simp at hslash
          · intro h
            obtain ⟨⟨_, ⟨rfl, rfl⟩, hhead⟩, hcolon, hback⟩ := h
            refine ⟨⟨⟨⟨rfl, ?_⟩, ?_⟩, hcolon⟩, hback⟩
            · have hne : d ≠ '/' := fun heq => hhead (by rw [heq]; rfl)
              simp [Ne.symm hne]
            · have hne : d ≠ '\\' := by
                intro heq
                subst heq
                exact hback (by simp)
              simp [Ne.symm hne]

/-- Without tabs and line breaks, what follows the gap is what follows the second slash. -/
theorem filter_gap {gap rest : List Char} (hgap : ∀ c ∈ gap, isTabOrNewline c = true) :
    (gap ++ '/' :: rest).filter (fun c => ! isTabOrNewline c) =
      '/' :: rest.filter (fun c => ! isTabOrNewline c) := by
  have hnil : gap.filter (fun c => ! isTabOrNewline c) = [] := by
    rw [List.filter_eq_nil_iff]
    intro c hc
    simp [hgap c hc]
  rw [List.filter_append, hnil, List.nil_append, List.filter_cons_of_pos (by decide)]

/-- A checked callback names a host when nothing but tabs and line breaks parts its slashes. -/
theorem namedHost_iff {raw authority : List Char} (h : isSafeCallback raw = true) :
    namedHost raw = some authority ↔
      ∃ gap rest, gap ≠ [] ∧ (∀ c ∈ gap, isTabOrNewline c = true) ∧
        raw = '/' :: (gap ++ '/' :: rest) ∧
        authority = authorityHost (rest.filter (fun c => ! isTabOrNewline c)) := by
  obtain ⟨⟨tail, rfl, hhead⟩, _, hback⟩ := isSafeCallback_iff.mp h
  have hfilter : ('/' :: tail).filter (fun c => ! isTabOrNewline c) =
      '/' :: tail.filter (fun c => ! isTabOrNewline c) := List.filter_cons_of_pos (by decide)
  unfold namedHost
  rw [hfilter]
  cases hrest : tail.filter (fun c => ! isTabOrNewline c) with
  | nil =>
      simp only [reduceCtorEq, false_iff, not_exists, not_and]
      intro gap rest _ hgap heq
      obtain rfl := (List.cons.inj heq).2
      rw [filter_gap hgap] at hrest
      cases hrest
  | cons d rest =>
      obtain ⟨gap, after, rfl, hgap, hd, hkept⟩ := List.filter_eq_cons_iff.mp hrest
      have hslash : d ≠ '\\' := by
        intro heq
        subst heq
        exact hback (by simp)
      have hgap : ∀ c ∈ gap, isTabOrNewline c = true := fun c hc => by simpa using hgap c hc
      by_cases hd : d = '/'
      · subst hd
        have hboth : (isSlash '/' && isSlash '/') = true := by decide
        simp only [hboth, if_true, Option.some.injEq]
        constructor
        · intro heq
          refine ⟨gap, after, ?_, hgap, rfl, ?_⟩
          · rintro rfl
            exact hhead rfl
          · rw [← heq, ← hkept]
        · intro hex
          obtain ⟨gap', after', _, hgap', heq, rfl⟩ := hex
          have hsame := congrArg (List.filter (fun c => ! isTabOrNewline c)) (List.cons.inj heq).2
          rw [filter_gap hgap', hrest] at hsame
          rw [(List.cons.inj hsame).2]
      · have hneither : (isSlash '/' && isSlash d) = false := by simp [isSlash, hd, hslash]
        simp only [hneither, Bool.false_eq_true, if_false, reduceCtorEq, false_iff, not_exists,
          not_and]
        intro gap' after' _ hgap' heq
        have hsame := congrArg (List.filter (fun c => ! isTabOrNewline c)) (List.cons.inj heq).2
        rw [filter_gap hgap', hrest] at hsame
        exact absurd (List.cons.inj hsame).1 hd

/-- The login form sends a visitor with a session on to the callback, if the check lets it
through, and else to the front page. -/
theorem middleware_login {callbackUrl : Option (List Char)} (hauth : v.auth ≠ none) :
    middleware site v ⟨"/login".toList, callbackUrl⟩ =
      redirectTo site (if isSafeCallback (callbackUrl.getD []) then callbackUrl.getD []
        else ['/']) := by
  rw [middleware_session (by decide) (by decide) (by decide)]
  have hadmin : "/admin".toList.isPrefixOf "/login".toList = false := by decide
  have hvendor : "/vendor".toList.isPrefixOf "/login".toList = false := by decide
  have hcustomer : customerProtectedPaths.any (under · "/login".toList) = false := by decide
  simp only [sessionRoutes, hadmin, hvendor, hcustomer, Bool.false_eq_true, if_false, hauth,
    ne_eq, not_false_eq_true, and_self, if_true]

/-- Of the paths that are not public, the login form alone leads off the site. -/
theorem login_of_sessionRoutes_leave {raw : List Char} (h : sessionRoutes site v u = .leave raw) :
    u.pathname = "/login".toList ∧ v.auth ≠ none := by
  unfold sessionRoutes at h
  split at h
  · split at h
    · split at h <;> cases h
    · split at h
      · cases h
      · split at h <;> cases h
  · split at h
    · split at h
      · cases h
      · split at h <;> cases h
    · split at h
      · split at h <;> cases h
      · split at h
        case isTrue hlogin => exact hlogin
        case isFalse => cases h

/-- The same of the whole middleware. -/
theorem login_of_middleware_leave {raw : List Char} (h : middleware site v u = .leave raw) :
    u.pathname = "/login".toList ∧ v.auth ≠ none := by
  unfold middleware at h
  split at h
  · cases h
  · split at h
    · simp only at h
      split at h <;> cases h
    · split at h
      · split at h <;> cases h
      · exact login_of_sessionRoutes_leave h

/-- A file is served on the site, so it is the middleware that leaves it. -/
theorem respond_leave_iff {raw : List Char} :
    respond site v u = .leave raw ↔ middleware site v u = .leave raw := by
  unfold respond
  split
  case isTrue => rfl
  case isFalse hexempt =>
    simp only [reduceCtorEq, false_iff]
    intro h
    rw [(login_of_middleware_leave h).1] at hexempt
    exact hexempt (by decide)

/-- A callback that passes the check names another host exactly where a gap of tabs and line breaks
parts its first two slashes and another host follows. -/
theorem namesOther_iff {raw : List Char} (h : isSafeCallback raw = true) :
    (∃ authority host, namedHost raw = some authority ∧ site.parseHost authority = some host ∧
        host ≠ site.host) ↔
      ∃ gap rest, gap ≠ [] ∧ (∀ c ∈ gap, isTabOrNewline c = true) ∧
        raw = '/' :: (gap ++ '/' :: rest) ∧
        ∃ host ∈ site.parseHost (authorityHost (rest.filter (fun c => ! isTabOrNewline c))),
          host ≠ site.host := by
  constructor
  · intro hex
    obtain ⟨authority, host, hnamed, hparsed, hother⟩ := hex
    obtain ⟨gap, rest, hne, hgap, hraw, rfl⟩ := (namedHost_iff h).mp hnamed
    exact ⟨gap, rest, hne, hgap, hraw, host, hparsed, hother⟩
  · intro hex
    obtain ⟨gap, rest, hne, hgap, hraw, host, hparsed, hother⟩ := hex
    exact ⟨_, host, (namedHost_iff h).mpr ⟨gap, rest, hne, hgap, hraw, rfl⟩, hparsed, hother⟩

/-- **Where a callback can lead**: the site is left only from the login form, with a session, by
a callback that the check lets through although tabs or line breaks alone part its first two
slashes, which the parser of URLs then reads as one after the other, and that names another host
there. -/
theorem callback_leaves_site_iff (site : Site) (v : Visitor) (u : SiteUrl) (raw : List Char) :
    respond site v u = .leave raw ↔
      u.pathname = "/login".toList ∧ v.auth ≠ none ∧ u.callbackUrl = some raw ∧
        isSafeCallback raw = true ∧
        ∃ gap rest, gap ≠ [] ∧ (∀ c ∈ gap, isTabOrNewline c = true) ∧
          raw = '/' :: (gap ++ '/' :: rest) ∧
          ∃ host ∈ site.parseHost (authorityHost (rest.filter (fun c => ! isTabOrNewline c))),
            host ≠ site.host := by
  rw [respond_leave_iff]
  constructor
  · intro h
    obtain ⟨hpath, hauth⟩ := login_of_middleware_leave h
    obtain ⟨path, callbackUrl⟩ := u
    simp only at hpath
    subst hpath
    rw [middleware_login hauth, redirectTo_leave] at h
    by_cases hsafe : isSafeCallback (callbackUrl.getD []) = true
    · rw [if_pos hsafe] at h
      cases callbackUrl with
      | none => exact absurd hsafe (by decide)
      | some c =>
          rw [Option.getD_some] at hsafe h
          obtain ⟨rfl, hnamed⟩ := h
          exact ⟨rfl, hauth, rfl, hsafe, (namesOther_iff hsafe).mp hnamed⟩
    · -- the front page names no host
      rw [if_neg hsafe] at h
      obtain ⟨_, authority, _, hnamed, _⟩ := h
      have hnone : namedHost ['/'] = none := by decide
      rw [hnone] at hnamed
      cases hnamed
  · intro h
    obtain ⟨hpath, hauth, hc, hsafe, hgap⟩ := h
    obtain ⟨path, callbackUrl⟩ := u
    simp only at hpath hc
    subst hpath hc
    rw [middleware_login hauth, Option.getD_some, if_pos hsafe]
    exact redirectTo_leave.mpr ⟨rfl, (namesOther_iff hsafe).mpr hgap⟩

end

end Jadwal
