import Masterserver.App.Health
import Masterserver.Lib.JsonRoundTrip
import Masterserver.Lib.Outcome

/-!
# When a ready node can issue TURN credentials

Readiness looks at three texts of the configuration and asks whether one of
them is set; `_turn_configured` decodes none of them. Issuing decodes them,
selects a secret by the time of day, and needs two more texts, or the static
servers where there is no secret.

`issue_ok_iff` says what issuing needs. The list of secrets has to be there
and in order whether or not one of them is used, so that even an empty text,
which readiness takes for a list that is not set, keeps every credential from
being issued. A node that has to have TURN is ready exactly then only if it
can issue credentials when `Issuable` holds or none of the three is set.
-/

namespace Masterserver

open Lib

namespace Turn

variable {p : TurnPrimitives} {c : TurnConfig} {now : Int} {entries : List SecretEntry}
  {e : SecretEntry} {secret : CodePoints}

/-! ## What issuing needs -/

/-- An entry of the list of secrets, as it has to be written. -/
def IsEntry (p : TurnPrimitives) (item : Decoded) (e : SecretEntry) : Prop :=
  ∃ members, item = .obj members ∧
    hasExactly members ["id", "secret", "activatesAt", "expiresAt"] = true ∧
    field members "id" = some (.str e.keyId) ∧ field members "secret" = some (.str e.secret) ∧
    field members "activatesAt" = some (.int e.activatesAt) ∧
    field members "expiresAt" = some (.int e.expiresAt) ∧
    1 ≤ e.keyId.length ∧ e.keyId.length ≤ 16 ∧ (∀ code ∈ e.keyId, isNameCode p code = true) ∧
    16 ≤ e.secret.length

/-- The list of secrets is there, and in order. -/
def ReadsEntries (p : TurnPrimitives) (c : TurnConfig) (entries : List SecretEntry) : Prop :=
  ∃ items, loads c.turnSharedSecretsJson = some (.arr items) ∧ items.length ≤ 8 ∧
    List.Forall₂ (IsEntry p) items entries

/-- The secret is the one of the last active entry, or the one without a
window if no entry is active. -/
def Selected (c : TurnConfig) (now : Int) (entries : List SecretEntry) (secret : CodePoints) :
    Prop :=
  (∃ e ∈ entries, e.active now = true ∧ e.secret = secret ∧
    ∀ e' ∈ entries, e'.active now = true → e'.rank ≤ e.rank) ∨
  (∀ e ∈ entries, e.active now = false) ∧ c.turnSharedSecret ≠ [] ∧ c.turnSharedSecret = secret

/-- A text that encodes. -/
def Encodes (codes : CodePoints) : Prop := ∀ code ∈ codes, isSurrogate code = false

instance (codes : CodePoints) : Decidable (Encodes codes) :=
  inferInstanceAs (Decidable (∀ code ∈ codes, isSurrogate code = false))

/-- What goes with a secret: it encodes, and there are URLs and a prefix. -/
structure RestReady (p : TurnPrimitives) (c : TurnConfig) (secret : CodePoints) : Prop where
  encodes : Encodes secret
  urls : ∃ urls, loads c.turnUrlsJson = some (.arr urls) ∧ 1 ≤ urls.length ∧ urls.length ≤ 16 ∧
    ∀ url ∈ urls, isTurnUrl url = true
  named : c.turnUsernamePrefix ≠ [] ∧ c.turnUsernamePrefix.length ≤ 32 ∧
    ∀ code ∈ c.turnUsernamePrefix, isNameCode p code = true

/-- There are static servers, and they are in order. -/
def StaticReady (c : TurnConfig) : Prop :=
  ∃ servers, loads c.turnServersJson = some (.arr servers) ∧ 1 ≤ servers.length ∧
    servers.length ≤ 16 ∧ ∀ server ∈ servers, validIceServer server = true

/-- The list of secrets is in order, and so is what goes with the selected
secret or, where none is, the list of static servers. -/
def Issuable (p : TurnPrimitives) (c : TurnConfig) (now : Int) : Prop :=
  ∃ entries, ReadsEntries p c entries ∧
    ((∃ secret, Selected c now entries secret ∧ RestReady p c secret) ∨
      (∀ e ∈ entries, e.active now = false) ∧ c.turnSharedSecret = [] ∧ StaticReady c)

/-! ## Reading the texts -/

theorem loadsOr_ok {message : String} {text : List Char} {value : Decoded} :
    loadsOr message text = .ok value ↔ loads text = some value := by
  unfold loadsOr fail
  split
  · next hloads => rw [hloads, Except.ok.injEq, Option.some.injEq]
  · next hloads => simp [hloads]

theorem secretEntry_ok {item : Decoded} : secretEntry p item = .ok e ↔ IsEntry p item e := by
  unfold IsEntry
  constructor
  · intro h
    cases item with
    | obj members =>
        rw [secretEntry] at h
        split at h
        · cases h
        next hnames =>
        split at h
        · next hid hsecret hfrom huntil =>
            split at h
            · next hform =>
                cases h
                obtain ⟨hpos, hle, hall, hlong⟩ := hform
                rw [Bool.not_eq_true, Bool.not_eq_false'] at hnames
                exact ⟨members, rfl, hnames, hid, hsecret, hfrom, huntil, hpos, hle,
                  List.all_eq_true.mp hall, hlong⟩
            · cases h
        · cases h
    | _ => cases h
  · rintro ⟨members, rfl, hnames, hid, hsecret, hfrom, huntil, hpos, hle, hall, hlong⟩
    rw [secretEntry, if_neg (by simp [hnames])]
    simp only [hid, hsecret, hfrom, huntil]
    rw [if_pos ⟨hpos, hle, List.all_eq_true.mpr hall, hlong⟩]

theorem secretEntries_ok : secretEntries p c = .ok entries ↔ ReadsEntries p c entries := by
  unfold secretEntries ReadsEntries
  rw [bind_eq_ok]
  constructor
  · rintro ⟨value, hvalue, h⟩
    rw [loadsOr_ok] at hvalue
    split at h
    · next items =>
        split at h
        · next hle =>
            refine ⟨items, hvalue, hle, ?_⟩
            exact (mapM_eq_ok.mp h).imp fun _ _ => secretEntry_ok.mp
        · cases h
    · cases h
  · rintro ⟨items, hvalue, hle, hitems⟩
    refine ⟨.arr items, loadsOr_ok.mpr hvalue, ?_⟩
    simp only [if_pos hle]
    exact mapM_eq_ok.mpr (hitems.imp fun _ _ => secretEntry_ok.mpr)

theorem turnUrls_ok : (∃ urls, turnUrls c = .ok urls) ↔
    ∃ urls, loads c.turnUrlsJson = some (.arr urls) ∧ 1 ≤ urls.length ∧ urls.length ≤ 16 ∧
      ∀ url ∈ urls, isTurnUrl url = true := by
  unfold turnUrls
  constructor
  · rintro ⟨urls, h⟩
    obtain ⟨value, hvalue, h⟩ := bind_eq_ok.mp h
    rw [loadsOr_ok] at hvalue
    split at h
    · next items =>
        split at h
        · cases h
        next hlength =>
        split at h
        · next hall =>
            rw [not_not] at hlength
            exact ⟨items, hvalue, hlength.1, hlength.2, List.all_eq_true.mp hall⟩
        · cases h
    · cases h
  · rintro ⟨items, hvalue, hone, hle, hall⟩
    refine ⟨items, bind_eq_ok.mpr ⟨.arr items, loadsOr_ok.mpr hvalue, ?_⟩⟩
    have hlength : ¬¬(1 ≤ items.length ∧ items.length ≤ 16) := not_not.mpr ⟨hone, hle⟩
    show (if ¬(1 ≤ items.length ∧ items.length ≤ 16) then
        fail "PARTICLE_TURN_URLS_JSON must contain 1 to 16 URLs"
      else if items.all isTurnUrl then pure items
      else fail "TURN URLs must use turn: or turns:") = Except.ok items
    rw [if_neg hlength, if_pos (List.all_eq_true.mpr hall)]
    rfl

theorem safePrefix_ok {value : CodePoints} :
    (∃ text, safePrefix p value = .ok text) ↔
      value ≠ [] ∧ value.length ≤ 32 ∧ ∀ code ∈ value, isNameCode p code = true := by
  unfold safePrefix
  constructor
  · rintro ⟨text, h⟩
    split at h
    · cases h
    next hform =>
    rw [not_or, not_or, not_lt, not_not] at hform
    exact ⟨hform.1, hform.2.1, List.all_eq_true.mp hform.2.2⟩
  · rintro ⟨hne, hle, hall⟩
    refine ⟨value, if_neg ?_⟩
    rw [not_or, not_or, not_lt, not_not]
    exact ⟨hne, hle, List.all_eq_true.mpr hall⟩

theorem staticReady_iff : StaticReady c ↔
    ∃ servers, loads c.turnServersJson = some servers ∧ validIceServers servers = true := by
  unfold StaticReady
  constructor
  · rintro ⟨servers, hloads, hone, hle, hall⟩
    refine ⟨.arr servers, hloads, ?_⟩
    rw [validIceServers, Bool.and_eq_true]
    exact ⟨decide_eq_true ⟨hone, hle⟩, List.all_eq_true.mpr hall⟩
  · rintro ⟨servers, hloads, hvalid⟩
    cases servers with
    | arr servers =>
        rw [validIceServers, Bool.and_eq_true] at hvalid
        have hlength := of_decide_eq_true hvalid.1
        exact ⟨servers, hloads, hlength.1, hlength.2, List.all_eq_true.mp hvalid.2⟩
    | _ => cases hvalid

theorem encode_ok {codes : CodePoints} :
    (∃ data, encode codes = .ok data) ↔ Encodes codes := by
  unfold encode Encodes
  constructor
  · rintro ⟨data, h⟩
    split at h
    · cases h
    next hany =>
    rw [Bool.not_eq_true, List.any_eq_false] at hany
    exact fun code hcode => Bool.eq_false_iff.mpr (hany code hcode)
  · intro h
    refine ⟨_, if_neg ?_⟩
    rw [Bool.not_eq_true, List.any_eq_false]
    exact fun code hcode => Bool.eq_false_iff.mp (h code hcode)

/-! ## The selected secret -/

/-- What `_active_shared_secret` goes by, given the entries. -/
def Chosen (c : TurnConfig) (now : Int) (entries : List SecretEntry) (keyId secret : CodePoints) :
    Prop :=
  (∃ e ∈ entries, e.active now = true ∧ e.keyId = keyId ∧ e.secret = secret ∧
    ∀ e' ∈ entries, e'.active now = true → e'.rank ≤ e.rank) ∨
  (∀ e ∈ entries, e.active now = false) ∧
    (c.turnSharedSecret ≠ [] ∧ keyId = codePoints "legacy" ∧ c.turnSharedSecret = secret ∨
      c.turnSharedSecret = [] ∧ keyId = [] ∧ secret = [])

theorem chosen_of_max? {rank : Rank}
    (h : ((entries.filter (SecretEntry.active now)).map SecretEntry.rank).max? = some rank) :
    ∃ e ∈ entries, e.active now = true ∧ e.rank = rank ∧
      ∀ e' ∈ entries, e'.active now = true → e'.rank ≤ e.rank := by
  obtain ⟨hmem, hle⟩ := List.max?_eq_some_iff.mp h
  obtain ⟨e, he, rfl⟩ := List.mem_map.mp hmem
  obtain ⟨he, hactive⟩ := List.mem_filter.mp he
  refine ⟨e, he, hactive, rfl, fun e' he' hactive' => ?_⟩
  exact hle _ (List.mem_map_of_mem (List.mem_filter.mpr ⟨he', hactive'⟩))

theorem max?_of_chosen {e : SecretEntry} (he : e ∈ entries) (hactive : e.active now = true)
    (hlast : ∀ e' ∈ entries, e'.active now = true → e'.rank ≤ e.rank) :
    ((entries.filter (SecretEntry.active now)).map SecretEntry.rank).max? = some e.rank := by
  refine List.max?_eq_some_iff.mpr ⟨?_, fun rank hrank => ?_⟩
  · exact List.mem_map_of_mem (List.mem_filter.mpr ⟨he, hactive⟩)
  · obtain ⟨e', he', rfl⟩ := List.mem_map.mp hrank
    obtain ⟨he', hactive'⟩ := List.mem_filter.mp he'
    exact hlast e' he' hactive'

theorem max?_eq_none (h : ∀ e ∈ entries, e.active now = false) :
    ((entries.filter (SecretEntry.active now)).map SecretEntry.rank).max? = none := by
  rw [List.max?_eq_none_iff, List.map_eq_nil_iff, List.filter_eq_nil_iff]
  exact fun e he => by rw [h e he]; exact Bool.false_ne_true

theorem activeSharedSecret_ok {keyId : CodePoints} :
    activeSharedSecret p c now = .ok (keyId, secret) ↔
      ∃ entries, ReadsEntries p c entries ∧ Chosen c now entries keyId secret := by
  unfold activeSharedSecret
  rw [bind_eq_ok]
  constructor
  · rintro ⟨entries, hentries, h⟩
    refine ⟨entries, secretEntries_ok.mp hentries, ?_⟩
    split at h
    · next rank hmax =>
        obtain ⟨e, he, hactive, rfl, hlast⟩ := chosen_of_max? hmax
        cases h
        exact .inl ⟨e, he, hactive, rfl, rfl, hlast⟩
    · next hmax =>
        rw [List.max?_eq_none_iff, List.map_eq_nil_iff, List.filter_eq_nil_iff] at hmax
        refine .inr ⟨fun e he => Bool.eq_false_iff.mpr (hmax e he), ?_⟩
        split at h
        · next hne =>
            cases h
            exact .inl ⟨hne, rfl, rfl⟩
        · next heq =>
            cases h
            exact .inr ⟨not_not.mp heq, rfl, rfl⟩
  · rintro ⟨entries, hentries, hchosen⟩
    refine ⟨entries, secretEntries_ok.mpr hentries, ?_⟩
    obtain ⟨e, he, hactive, rfl, rfl, hlast⟩ | ⟨hnone, hlegacy⟩ := hchosen
    · rw [max?_of_chosen he hactive hlast]
      rfl
    · rw [max?_eq_none hnone]
      obtain ⟨hne, rfl, rfl⟩ | ⟨heq, rfl, rfl⟩ := hlegacy
      · exact if_pos hne
      · exact if_neg (not_not.mpr heq)

theorem Selected.chosen (h : Selected c now entries secret) :
    ∃ keyId, Chosen c now entries keyId secret := by
  obtain ⟨e, he, hactive, hsecret, hlast⟩ | ⟨hnone, hne, hsecret⟩ := h
  · exact ⟨e.keyId, .inl ⟨e, he, hactive, rfl, hsecret, hlast⟩⟩
  · exact ⟨codePoints "legacy", .inr ⟨hnone, .inl ⟨hne, rfl, hsecret⟩⟩⟩

theorem Chosen.selected {keyId : CodePoints} (h : Chosen c now entries keyId secret)
    (hne : secret ≠ []) : Selected c now entries secret := by
  obtain ⟨e, he, hactive, -, hsecret, hlast⟩ | ⟨hnone, ⟨hlegacy, -, hsecret⟩ | ⟨-, -, rfl⟩⟩ := h
  · exact .inl ⟨e, he, hactive, hsecret, hlast⟩
  · exact .inr ⟨hnone, hlegacy, hsecret⟩
  · exact absurd rfl hne

theorem ReadsEntries.isEntry (h : ReadsEntries p c entries) (he : e ∈ entries) :
    ∃ item, IsEntry p item e := by
  obtain ⟨items, -, -, hall⟩ := h
  induction hall with
  | nil => cases he
  | cons hitem hrest ih =>
      obtain rfl | he := List.mem_cons.mp he
      · exact ⟨_, hitem⟩
      · exact ih he

/-- The secret of an entry is long enough, and the one without a window is
only used if it is there. -/
theorem Selected.ne_nil (h : Selected c now entries secret) (hread : ReadsEntries p c entries) :
    secret ≠ [] := by
  obtain ⟨e, he, -, rfl, -⟩ | ⟨-, hne, rfl⟩ := h
  · obtain ⟨item, members, -, -, -, -, -, -, -, -, -, hlong⟩ := hread.isEntry he
    intro hnil
    rw [hnil, List.length_nil] at hlong
    omega
  · exact hne

theorem Chosen.eq_nil {keyId : CodePoints} (h : Chosen c now entries keyId [])
    (hread : ReadsEntries p c entries) :
    (∀ e ∈ entries, e.active now = false) ∧ c.turnSharedSecret = [] := by
  obtain ⟨e, he, hactive, -, hsecret, hlast⟩ | ⟨hnone, ⟨hlegacy, -, hsecret⟩ | ⟨hnil, -, -⟩⟩ := h
  · have hselected : Selected c now entries [] := .inl ⟨e, he, hactive, hsecret, hlast⟩
    exact absurd rfl (hselected.ne_nil hread)
  · exact absurd hsecret hlegacy
  · exact ⟨hnone, hnil⟩

/-! ## The username -/

theorem Encodes.append {codes more : CodePoints} (h : Encodes codes) (hmore : Encodes more) :
    Encodes (codes ++ more) := by
  intro code hcode
  obtain hcode | hcode := List.mem_append.mp hcode
  · exact h code hcode
  · exact hmore code hcode

theorem encodes_codePoints (s : String) : Encodes (codePoints s) := by
  intro code hcode
  obtain ⟨c, -, rfl⟩ := List.mem_map.mp hcode
  exact not_isSurrogate c

theorem isSurrogate_of_isNameCode {code : Nat} (h : isNameCode p code = true) :
    isSurrogate code = false := by
  unfold isNameCode at h
  rw [Bool.or_eq_true, Bool.or_eq_true, beq_iff_eq, beq_iff_eq, Bool.and_eq_true] at h
  obtain (rfl | rfl) | ⟨h, -⟩ := h
  · rfl
  · rfl
  · exact Bool.not_eq_true' _ |>.mp h

theorem Chosen.encodes {keyId : CodePoints} (h : Chosen c now entries keyId secret)
    (hread : ReadsEntries p c entries) : Encodes keyId := by
  obtain ⟨e, he, -, rfl, -⟩ | ⟨-, ⟨-, rfl, -⟩ | ⟨-, rfl, -⟩⟩ := h
  · obtain ⟨item, members, -, -, -, -, -, -, -, -, hall, -⟩ := hread.isEntry he
    exact fun code hcode => isSurrogate_of_isNameCode (hall code hcode)
  · exact encodes_codePoints _
  · exact fun code hcode => absurd hcode List.not_mem_nil

/-! ## Issuing -/

theorem issue_ok_iff {clock : Seconds} {token : Bytes} :
    (∃ credentials, issue p c clock token = .ok credentials) ↔ Issuable p c (pyInt clock) := by
  unfold issue
  constructor
  · rintro ⟨credentials, h⟩
    obtain ⟨⟨keyId, secret⟩, hchosen, h⟩ := bind_eq_ok.mp h
    obtain ⟨entries, hread, hchosen⟩ := activeSharedSecret_ok.mp hchosen
    refine ⟨entries, hread, ?_⟩
    dsimp only at h
    split at h
    · next hne =>
        obtain ⟨urls, hurls, h⟩ := bind_eq_ok.mp h
        obtain ⟨namePrefix, hprefix, h⟩ := bind_eq_ok.mp h
        obtain ⟨key, hkey, -⟩ := bind_eq_ok.mp h
        exact .inl ⟨secret, hchosen.selected hne,
          ⟨encode_ok.mp ⟨key, hkey⟩, turnUrls_ok.mp ⟨urls, hurls⟩,
            safePrefix_ok.mp ⟨namePrefix, hprefix⟩⟩⟩
    · next hnil =>
        obtain rfl := not_not.mp hnil
        obtain ⟨servers, hservers, h⟩ := bind_eq_ok.mp h
        obtain ⟨hnone, hlegacy⟩ := hchosen.eq_nil hread
        split at h
        · next hvalid =>
            exact .inr ⟨hnone, hlegacy,
              staticReady_iff.mpr ⟨servers, loadsOr_ok.mp hservers, hvalid⟩⟩
        · cases h
  · rintro ⟨entries, hread, ⟨secret, hselected, hrest⟩ | ⟨hnone, hlegacy, hstatic⟩⟩
    · obtain ⟨keyId, hchosen⟩ := hselected.chosen
      obtain ⟨urls, hurls⟩ := turnUrls_ok.mpr hrest.urls
      obtain ⟨namePrefix, hprefix⟩ := safePrefix_ok.mpr hrest.named
      obtain ⟨key, hkey⟩ := encode_ok.mpr hrest.encodes
      have hnamed : Encodes namePrefix := by
        obtain rfl : c.turnUsernamePrefix = namePrefix := by
          unfold safePrefix at hprefix
          split at hprefix
          · cases hprefix
          · exact Except.ok.inj hprefix
        exact fun code hcode => isSurrogate_of_isNameCode (hrest.named.2.2 code hcode)
      have husername : Encodes (codePoints (toString (pyInt clock + c.turnTtlSeconds)) ++
          codePoints ":" ++ namePrefix ++ codePoints "-" ++ keyId ++ codePoints "-" ++
          codePoints (hex token)) :=
        ((((((encodes_codePoints _).append (encodes_codePoints _)).append hnamed).append
          (encodes_codePoints _)).append (hchosen.encodes hread)).append
          (encodes_codePoints _)).append (encodes_codePoints _)
      obtain ⟨message, hmessage⟩ := encode_ok.mpr husername
      have hactive : activeSharedSecret p c (pyInt clock) = .ok (keyId, secret) :=
        activeSharedSecret_ok.mpr ⟨entries, hread, hchosen⟩
      simp only [hactive, hurls, hprefix, hkey, hmessage, bind, Except.bind,
        if_pos (hselected.ne_nil hread)]
      exact ⟨_, rfl⟩
    · obtain ⟨servers, hservers, hvalid⟩ := staticReady_iff.mp hstatic
      have hactive : activeSharedSecret p c (pyInt clock) = .ok ([], []) :=
        activeSharedSecret_ok.mpr ⟨entries, hread, .inr ⟨hnone, .inr ⟨hlegacy, rfl, rfl⟩⟩⟩
      simp only [hactive, loadsOr_ok.mpr hservers, if_pos hvalid, bind, Except.bind, ne_eq,
        not_true_eq_false, if_false]
      exact ⟨_, rfl⟩

end Turn

/-! ## Readiness and issuing -/

/-- Whenever the node is ready as far as TURN goes, it issues credentials. -/
def TurnAgrees (p : TurnPrimitives) (c : TurnConfig) (now : Seconds) : Prop :=
  ∀ hub metrics trust mesh reasons,
    Health.readinessReasons hub c metrics trust mesh now = some reasons →
    "turn-unavailable" ∉ reasons →
    ∀ token, ∃ credentials, Turn.issue p c now token = .ok credentials

/-- A fresh node with something set does not miss TURN. -/
theorem exists_ready {c : TurnConfig} (hset : Health.turnConfigured c = true) (now : Seconds) :
    ∃ reasons, Health.readinessReasons (.new c.toConfig 0) c .new none none now = some reasons ∧
      "turn-unavailable" ∉ reasons := by
  obtain ⟨skewed, hskewed⟩ : ∃ skewed, Health.clockSkewed c.toConfig .new = some skewed := by
    unfold Health.clockSkewed
    split
    · exact ⟨_, congrArg (Option.map _) (Metrics.gaugeValue_new _)⟩
    · exact ⟨false, rfl⟩
  obtain ⟨reasons, hreasons⟩ :=
    Health.exists_readinessReasons (Metrics.gaugeValue_new _) hskewed (.new c.toConfig 0) none none now
  refine ⟨reasons, hreasons, fun hmem => ?_⟩
  have hunset := ((Health.turnUnavailable_mem hreasons).mp hmem).2
  rw [hset] at hunset
  cases hunset

/-- A node that asks for TURN and finds nothing set is not ready; one that
finds something set is, whatever it says. -/
theorem turn_agrees_iff (p : TurnPrimitives) (c : TurnConfig) (now : Seconds)
    (hrequire : c.readinessRequireTurn = true) :
    TurnAgrees p c now ↔
      Health.turnConfigured c = false ∨ Turn.Issuable p c (pyInt now) := by
  constructor
  · intro hagrees
    by_cases hset : Health.turnConfigured c = false
    · exact .inl hset
    rw [Bool.not_eq_false] at hset
    obtain ⟨reasons, hreasons, hready⟩ := exists_ready hset now
    exact .inr (Turn.issue_ok_iff.mp (hagrees _ _ _ _ _ hreasons hready []))
  · intro h hub metrics trust mesh reasons hreasons hready token
    refine Turn.issue_ok_iff.mpr (h.resolve_left fun hset => hready ?_)
    exact (Health.turnUnavailable_mem hreasons).mpr ⟨hrequire, hset⟩

/-- Alphanumeric is ASCII, and a digest is empty. -/
def asciiTurn : TurnPrimitives := ⟨Char.isAlphanum, fun _ _ => []⟩

/-- A node that has to have TURN, with a secret and a URL. -/
def secretAndUrl : TurnConfig :=
  { Config.default with
    turnSharedSecret := codePoints "turn-rest-secret"
    turnUrlsJson := "[\"turn:turn.example:3478\"]".toList
    readinessRequireTurn := true }

/-- It can issue credentials. -/
theorem turn_agrees_secret : TurnAgrees asciiTurn secretAndUrl 0 := by
  have hissued : (Turn.issue asciiTurn secretAndUrl 0 []).toBool = true := by decide +kernel
  refine (turn_agrees_iff _ _ _ rfl).mpr (.inr ?_)
  cases hissue : Turn.issue asciiTurn secretAndUrl 0 [] with
  | ok credentials => exact Turn.issue_ok_iff.mp ⟨credentials, hissue⟩
  | error e =>
      rw [hissue] at hissued
      cases hissued

/-- The same node without a URL, and one with a static server and an empty
text for the list of secrets. -/
def secretOnly : TurnConfig := { secretAndUrl with turnUrlsJson := ['[', ']'] }

def blankSecrets : TurnConfig :=
  { Config.default with
    turnServersJson :=
      "[\x7b\"urls\":\"turns:turn.example:5349\",\"username\":\"u\",\"credential\":\"c\"\x7d]".toList
    turnSharedSecretsJson := []
    readinessRequireTurn := true }

theorem not_turnAgrees {p : TurnPrimitives} {c : TurnConfig} {now : Seconds}
    (hset : Health.turnConfigured c = true) (hraises : (Turn.issue p c now []).toBool = false) :
    ¬ TurnAgrees p c now := by
  intro hagrees
  obtain ⟨reasons, hreasons, hready⟩ := exists_ready hset now
  obtain ⟨credentials, hissued⟩ := hagrees _ _ _ _ _ hreasons hready []
  rw [hissued] at hraises
  cases hraises

/-- Both are ready, and neither can issue credentials. -/
theorem ready_not_issuing :
    ¬ TurnAgrees asciiTurn secretOnly 0 ∧ ¬ TurnAgrees asciiTurn blankSecrets 0 :=
  ⟨not_turnAgrees (by decide +kernel) (by decide +kernel),
    not_turnAgrees (by decide +kernel) (by decide +kernel)⟩

end Masterserver
