import VacuumCleaner.Lib.Regex

/-! The Wi-Fi settings that the core writes into a file and searches it for. -/
namespace VacuumCleaner.Core.WifiCredentials

open Lib Lib.Regex

/-- `WPA_SETTINGS_CONTENT` up to its field `ssid`, up to `psk`, and the rest. -/
def beforeSsid : List Char :=
  ("ctrl_interface=DIR=/var/run/wpa_supplicant GROUP=netdev\n" ++
    "update_config=1\ncountry=US\n\nnetwork=\x7b\n    ssid=\"").toList

def beforePsk : List Char := "\"\n    scan_ssid=1\n    psk=\"".toList

def behindPsk : List Char := "\"\n    key_mgmt=WPA-PSK\n\x7d\n".toList

def wpaSettingsContent (ssid psk : List Char) : List Char :=
  beforeSsid ++ ssid ++ beforePsk ++ psk ++ behindPsk

structure WpaConfig where
  ssid : List Char
  psk : List Char
  keyMgmt : List Char
  deriving DecidableEq, Repr

/-- `\s`, up to U+00FF. -/
def isSpace (c : Char) : Bool :=
  c.toNat == 32 || (9 ≤ c.toNat && c.toNat ≤ 13) || (28 ≤ c.toNat && c.toNat ≤ 31) ||
    c.toNat == 133 || c.toNat == 160

/-- A key with `\s*=\s*` and the pattern of its value. -/
def assigned (key : List Char) (value : Regex) : Regex :=
  seq (literal key) (seq (many isSpace) (seq (one (· == '=')) (seq (many isSpace) value)))

/-- `\"(.+)\"`. -/
def quoted : Regex :=
  seq (one (· == '"')) (seq (group (plus (· != '\n'))) (one (· == '"')))

/-- `(\S+)`. -/
def word : Regex := group (plus fun c => !isSpace c)

/-- `m.group(1) if m else ""`. -/
def groupOf (found : Option (List (List Char))) : List Char :=
  (found.bind (·.head?)).getD []

structure LinuxOperationSystem where
  wpaSupplicantConfFile : Option (List Char) := none
  deriving DecidableEq, Repr

namespace LinuxOperationSystem

def setWifiCredentials (ssid password : List Char) (os : LinuxOperationSystem) :
    LinuxOperationSystem :=
  { os with wpaSupplicantConfFile := some (wpaSettingsContent ssid password) }

def getWpaConfig (os : LinuxOperationSystem) : Except String WpaConfig :=
  match os.wpaSupplicantConfFile with
  | none => .error "WPA file does not exist"
  | some content => .ok
    { ssid := groupOf (search (assigned "ssid".toList quoted) content)
      psk := groupOf (search (assigned "psk".toList quoted) content)
      keyMgmt := groupOf (search (assigned "key_mgmt".toList word) content) }

end LinuxOperationSystem

/-- A text that a user can enter: printable ASCII. -/
structure Credential where
  text : List Char
  ne_nil : text ≠ []
  printable : ∀ c ∈ text, 0x20 ≤ c.toNat ∧ c.toNat ≤ 0x7E

/-- The settings are read back as they were written. -/
def RoundTrip (os : LinuxOperationSystem) (ssid password : Credential) : Prop :=
  (os.setWifiCredentials ssid.text password.text).getWpaConfig =
    .ok ⟨ssid.text, password.text, "WPA-PSK".toList⟩

/-- What follows a key at the head of a text, blanks, `=` and blanks. -/
def afterAssignment (key text : List Char) : Option (List Char) :=
  if key <+: text then
    match (text.drop key.length).dropWhile isSpace with
    | '=' :: rest => some (rest.dropWhile isSpace)
    | _ => none
  else none

/-- What follows each assignment to a key. -/
def assignments (key text : List Char) : List (List Char) :=
  text.tails.filterMap (afterAssignment key)

/-- A quotation mark with something behind it. -/
def opensQuote : List Char → Bool
  | '"' :: _ :: _ => true
  | _ => false

/-- The name of the network opens no other value of `psk`, and the first
`key_mgmt` that the name or else the password assigns is the one of the file. -/
def KeepsClear (ssid password : Credential) : Prop :=
  (∀ after, (assignments "psk".toList ssid.text).find? opensQuote = some after →
    after = '"' :: password.text) ∧
  ∀ after, (assignments "key_mgmt".toList ssid.text ++
    assignments "key_mgmt".toList password.text).head? = some after →
    "WPA-PSK ".toList <+: after

theorem opensQuote_iff {after : List Char} :
    opensQuote after = true ↔ ∃ c text, after = '"' :: c :: text := by
  constructor
  · intro hopens
    unfold opensQuote at hopens
    split at hopens
    · exact ⟨_, _, rfl⟩
    · cases hopens
  · rintro ⟨c, text, rfl⟩
    rfl

section assignments

variable {key : List Char}

theorem search_assigned {value : Regex}
    (hvalue : ∀ c text, isSpace c = true → value.ways (c :: text) = []) (text : List Char) :
    search (assigned key value) text = (assignments key text).findSome? value.captures := by
  have hcaptures : ∀ text, (assigned key value).captures text =
      (afterAssignment key text).bind value.captures := by
    intro text
    have hequals : ∀ c text, isSpace c = true →
        (seq (one (· == '=')) (seq (many isSpace) value)).ways (c :: text) = [] := by
      intro c text hc
      have hne : c ≠ '=' := by
        rintro rfl
        exact absurd hc (by decide)
      rw [ways_one_seq]
      exact if_neg (by simpa using hne)
    unfold captures assigned afterAssignment
    rw [ways_literal_seq]
    split
    · rw [ways_many_seq hequals, ways_one_seq]
      cases (text.drop key.length).dropWhile isSpace with
      | nil => rfl
      | cons c rest =>
        by_cases hc : c = '='
        · subst hc
          dsimp only
          rw [if_pos (beq_self_eq_true _), ways_many_seq hvalue]
          rfl
        · dsimp only
          rw [if_neg (by simpa using hc)]
          split
          · rename_i heq
            exact absurd (List.cons.inj heq).1 hc
          · rfl
    · rfl
  unfold search assignments
  induction text.tails with
  | nil => rfl
  | cons suffix suffixes ih =>
    rw [List.findSome?_cons, List.filterMap_cons, hcaptures, ih]
    cases afterAssignment key suffix with
    | none => rfl
    | some after => rfl

/-- A delimiter belongs to no assignment. -/
structure Delimits (key : List Char) (delimiter : Char) : Prop where
  key_ne_nil : key ≠ []
  not_mem : delimiter ∉ key
  not_space : isSpace delimiter = false
  ne_equals : delimiter ≠ '='

theorem Delimits.dropWhile_append {delimiter : Char} (hdelimiter : Delimits key delimiter)
    (text more : List Char) : (text ++ delimiter :: more).dropWhile isSpace =
      text.dropWhile isSpace ++ delimiter :: more := by
  rw [List.dropWhile_append, List.dropWhile_cons_of_neg (by simp [hdelimiter.not_space])]
  split
  · rename_i hempty
    rw [List.isEmpty_iff.mp hempty, List.nil_append]
  · rfl

theorem Delimits.prefix_append_iff {delimiter : Char} (hdelimiter : Delimits key delimiter)
    (text more : List Char) : key <+: text ++ delimiter :: more ↔ key <+: text := by
  constructor
  · intro hprefix
    have htext : text ++ [delimiter] <+: text ++ delimiter :: more := by simp
    by_cases hlength : key.length ≤ text.length
    · exact List.prefix_of_prefix_length_le hprefix (List.prefix_append _ _) hlength
    · have hlonger := List.prefix_of_prefix_length_le htext hprefix (by simp; omega)
      exact absurd (hlonger.subset (List.mem_append_right _ (List.mem_singleton_self _)))
        hdelimiter.not_mem
  · exact fun hprefix => hprefix.trans (List.prefix_append _ _)

theorem afterAssignment_append {delimiter : Char} (hdelimiter : Delimits key delimiter)
    (text more : List Char) : afterAssignment key (text ++ delimiter :: more) =
      (afterAssignment key text).map (· ++ delimiter :: more) := by
  unfold afterAssignment
  by_cases hprefix : key <+: text
  · rw [if_pos ((hdelimiter.prefix_append_iff text more).mpr hprefix), if_pos hprefix,
      List.drop_append_of_le_length hprefix.length_le, hdelimiter.dropWhile_append]
    cases (text.drop key.length).dropWhile isSpace with
    | nil =>
      rw [List.nil_append]
      split
      · rename_i hequals
        exact absurd (List.cons.inj hequals).1 hdelimiter.ne_equals
      · rfl
    | cons c rest =>
      by_cases hc : c = '='
      · subst hc
        exact congrArg some (hdelimiter.dropWhile_append rest more)
      · rw [List.cons_append]
        split
        · rename_i hequals
          exact absurd (List.cons.inj hequals).1 hc
        · split
          · rename_i hequals
            exact absurd (List.cons.inj hequals).1 hc
          · rfl
  · rw [if_neg (mt (hdelimiter.prefix_append_iff text more).mp hprefix), if_neg hprefix]
    rfl

theorem assignments_append {delimiter : Char} (hdelimiter : Delimits key delimiter)
    (text more : List Char) : assignments key (text ++ delimiter :: more) =
      (assignments key text).map (· ++ delimiter :: more) ++ assignments key more := by
  unfold assignments
  induction text with
  | nil =>
    have hfirst := afterAssignment_append hdelimiter [] more
    have hnil : afterAssignment key [] = none := if_neg fun h =>
      hdelimiter.key_ne_nil (List.prefix_nil.mp h)
    rw [List.nil_append, hnil, Option.map_none] at hfirst
    rw [List.nil_append, List.tails_cons, List.filterMap_cons_none hfirst,
      show List.tails ([] : List Char) = [[]] from rfl, List.filterMap_cons_none hnil, List.filterMap_nil, List.map_nil, List.nil_append]
  | cons c text ih =>
    have hfirst := afterAssignment_append hdelimiter (c :: text) more
    rw [List.cons_append] at hfirst ⊢
    rw [List.tails_cons, List.tails_cons, List.filterMap_cons, List.filterMap_cons, hfirst, ih]
    cases afterAssignment key (c :: text) with
    | none => rfl
    | some after => rfl

end assignments

section values

theorem ways_quoted_space (c : Char) (text : List Char) (hc : isSpace c = true) :
    quoted.ways (c :: text) = [] := by
  have hne : c ≠ '"' := by
    rintro rfl
    exact absurd hc (by decide)
  rw [quoted, ways_one_seq]
  exact if_neg (by simpa using hne)

theorem ways_word_space (c : Char) (text : List Char) (hc : isSpace c = true) :
    word.ways (c :: text) = [] := by
  rw [word, ways, ways_plus]
  simp [hc]

theorem captures_quoted_cons (c : Char) (text : List Char) : quoted.captures (c :: text) =
    if c = '"' then (seq (group (plus (· != '\n'))) (one (· == '"'))).captures text else none := by
  unfold captures quoted
  rw [ways_one_seq]
  by_cases hc : c = '"'
  · simp [hc]
  · simp [hc]

/-- A value of the file in quotation marks, with `after` in front of the mark
that ends its line. -/
theorem captures_quoted {after : List Char} (hafter : '\n' ∉ after) (more : List Char) :
    quoted.captures (after ++ '"' :: '\n' :: more) =
      if opensQuote after then some [after.tail] else none := by
  have hline {body : List Char} (hbody : '\n' ∉ body) :
      (seq (group (plus (· != '\n'))) (one (· == '"'))).captures (body ++ '"' :: '\n' :: more) =
        if body = [] then none else some [body] :=
    captures_group_plus_one (fun c hc => by simpa using ne_of_mem_of_not_mem hc hbody) rfl rfl
  cases after with
  | nil =>
    rw [List.nil_append, captures_quoted_cons, if_pos rfl]
    rfl
  | cons c body =>
    rw [List.cons_append, captures_quoted_cons]
    by_cases hc : c = '"'
    · rw [if_pos hc, hline fun h => hafter (List.mem_cons_of_mem _ h), hc]
      cases body <;> rfl
    · have hopens : opensQuote (c :: body) = false := by
        unfold opensQuote
        split
        · rename_i hquote
          exact absurd (List.cons.inj hquote).1 hc
        · rfl
      rw [if_neg hc, hopens]
      rfl

theorem captures_word (text : List Char) : word.captures text =
    if (text.takeWhile fun c => !isSpace c) = [] then none
    else some [text.takeWhile fun c => !isSpace c] := captures_group_plus text

end values

/-- The parts of the file between its quotation marks. -/
def head : List Char := beforeSsid.dropLast

def middle : List Char := beforePsk.dropLast.drop 1

def tail : List Char := behindPsk.drop 1

theorem wpaSettingsContent_eq (ssid psk : List Char) : wpaSettingsContent ssid psk =
    head ++ '"' :: (ssid ++ '"' :: (middle ++ '"' :: (psk ++ '"' :: tail))) := by
  have hhead : beforeSsid = head ++ ['"'] := by decide +kernel
  have hmiddle : beforePsk = '"' :: (middle ++ ['"']) := by decide +kernel
  have htail : behindPsk = '"' :: tail := by decide +kernel
  rw [wpaSettingsContent, hhead, hmiddle, htail]
  simp only [List.append_assoc, List.cons_append, List.nil_append]

theorem assignments_wpaSettingsContent {key : List Char} (hquote : Delimits key '"')
    (ssid psk : List Char) : assignments key (wpaSettingsContent ssid psk) =
      (assignments key head).map
        (· ++ '"' :: (ssid ++ '"' :: (middle ++ '"' :: (psk ++ '"' :: tail)))) ++
      ((assignments key ssid).map (· ++ '"' :: (middle ++ '"' :: (psk ++ '"' :: tail))) ++
      ((assignments key middle).map (· ++ '"' :: (psk ++ '"' :: tail)) ++
      ((assignments key psk).map (· ++ '"' :: tail) ++ assignments key tail))) := by
  rw [wpaSettingsContent_eq, assignments_append hquote, assignments_append hquote,
    assignments_append hquote, assignments_append hquote]

section reading

variable (ssid password : Credential)

theorem Credential.newline_not_mem (credential : Credential) : '\n' ∉ credential.text :=
  fun hmem => absurd (credential.printable '\n' hmem).1 (by decide)

theorem Credential.eq_space (credential : Credential) {c : Char} (hc : c ∈ credential.text)
    (hspace : isSpace c = true) : c = ' ' := by
  have hrange := credential.printable c hc
  simp only [isSpace, Bool.or_eq_true, Bool.and_eq_true, beq_iff_eq, decide_eq_true_eq] at hspace
  have hcode : c.toNat = ' '.toNat := by
    rw [show ' '.toNat = 32 from rfl]
    omega
  exact Char.toNat_inj.mp hcode

theorem afterAssignment_suffix {key text after : List Char}
    (hafter : afterAssignment key text = some after) : after <:+ text := by
  unfold afterAssignment at hafter
  split at hafter
  · split at hafter
    · rename_i rest hrest
      cases hafter
      have hequals : '=' :: rest <:+ text.drop key.length := hrest ▸ List.dropWhile_suffix _
      exact (List.dropWhile_suffix _).trans
        ((List.suffix_cons _ _).trans (hequals.trans (List.drop_suffix _ _)))
    · cases hafter
  · cases hafter

theorem suffix_of_mem_assignments {key text after : List Char}
    (hafter : after ∈ assignments key text) : after <:+ text := by
  obtain ⟨suffix, hsuffix, hassigned⟩ := List.mem_filterMap.mp hafter
  exact (afterAssignment_suffix hassigned).trans ((List.mem_tails _ _).mp hsuffix)

theorem afterAssignment_head {key text after : List Char}
    (hafter : afterAssignment key text = some after) (c : Char) (hc : after.head? = some c) :
    isSpace c = false := by
  unfold afterAssignment at hafter
  split at hafter
  · split at hafter
    · rename_i rest hrest
      cases hafter
      have hnot := List.head?_dropWhile_not isSpace rest
      rw [hc] at hnot
      simpa using hnot
    · cases hafter
  · cases hafter

theorem middle_eq : middle = '\n' :: middle.tail := by decide +kernel

theorem tail_eq : tail = '\n' :: tail.tail := by decide +kernel

theorem search_ssid :
    groupOf (search (assigned "ssid".toList quoted) (wpaSettingsContent ssid.text password.text)) =
      ssid.text := by
  have hquote : Delimits "ssid".toList '"' := by constructor <;> decide
  have hhead : assignments "ssid".toList head = [[]] := by decide +kernel
  have hopens : opensQuote ('"' :: ssid.text) = true := by
    obtain ⟨c, text, htext⟩ := List.exists_cons_of_ne_nil ssid.ne_nil
    rw [htext]
    rfl
  have hnewline : '\n' ∉ '"' :: ssid.text := by simpa using ssid.newline_not_mem
  have hvalue := captures_quoted hnewline (middle.tail ++ '"' :: (password.text ++ '"' :: tail))
  rw [hopens, if_pos rfl, List.cons_append] at hvalue
  rw [search_assigned ways_quoted_space, assignments_wpaSettingsContent hquote, hhead, middle_eq]
  simp only [List.map_cons, List.map_nil, List.nil_append, List.cons_append, List.findSome?_cons,
    hvalue]
  rfl

theorem findSome_quoted {afters : List (List Char)} (more : List Char)
    (hafters : ∀ after ∈ afters, '\n' ∉ after) :
    (afters.map (· ++ '"' :: '\n' :: more)).findSome? quoted.captures =
      (afters.find? opensQuote).map fun after => [after.tail] := by
  induction afters with
  | nil => rfl
  | cons after afters ih =>
    obtain ⟨hafter, hafters⟩ := List.forall_mem_cons.mp hafters
    rw [List.map_cons, List.findSome?_cons, captures_quoted hafter, List.find?_cons, ih hafters]
    cases opensQuote after
    · rfl
    · rfl

theorem Credential.newline_not_mem_of_mem (credential : Credential) {key after : List Char}
    (hafter : after ∈ assignments key credential.text) : '\n' ∉ after := fun hmem =>
  credential.newline_not_mem ((suffix_of_mem_assignments hafter).subset hmem)

/-- The first quotation that the name opens for `psk` is read instead of the
password. -/
theorem search_psk :
    groupOf (search (assigned "psk".toList quoted) (wpaSettingsContent ssid.text password.text)) =
      (((assignments "psk".toList ssid.text).find? opensQuote).getD ('"' :: password.text)).tail := by
  have hquote : Delimits "psk".toList '"' := by constructor <;> decide
  have hhead : assignments "psk".toList head = [] := by decide +kernel
  have hmiddle : assignments "psk".toList middle = [[]] := by decide +kernel
  have hopens : opensQuote ('"' :: password.text) = true := by
    obtain ⟨c, text, htext⟩ := List.exists_cons_of_ne_nil password.ne_nil
    rw [htext]
    rfl
  have hnewline : '\n' ∉ '"' :: password.text := by simpa using password.newline_not_mem
  have hvalue := captures_quoted hnewline tail.tail
  rw [hopens, if_pos rfl, ← tail_eq, List.cons_append] at hvalue
  have hname := findSome_quoted (middle.tail ++ '"' :: (password.text ++ '"' :: tail))
    fun after (hafter : after ∈ assignments "psk".toList ssid.text) =>
      ssid.newline_not_mem_of_mem hafter
  rw [← List.cons_append, ← middle_eq] at hname
  rw [search_assigned ways_quoted_space, assignments_wpaSettingsContent hquote, hhead, hmiddle,
    List.map_nil, List.nil_append, List.findSome?_append, hname, List.map_singleton,
    List.singleton_append, List.findSome?_cons, List.nil_append, hvalue]
  cases (assignments "psk".toList ssid.text).find? opensQuote with
  | none => rfl
  | some after => rfl

theorem captures_word_append {key text after : List Char} (hafter : after ∈ assignments key text)
    (more : List Char) : word.captures (after ++ '"' :: '\n' :: more) =
      some [(after ++ ['"']).takeWhile fun c => !isSpace c] := by
  have hsame : ((after ++ '"' :: '\n' :: more).takeWhile fun c => !isSpace c) =
      (after ++ ['"']).takeWhile fun c => !isSpace c := by
    rw [List.takeWhile_append, List.takeWhile_append]
    rfl
  have hne : ((after ++ ['"']).takeWhile fun c => !isSpace c) ≠ [] := by
    obtain ⟨suffix, -, hassigned⟩ := List.mem_filterMap.mp hafter
    cases after with
    | nil => simp [show isSpace '"' = false by decide]
    | cons c after => simp [afterAssignment_head hassigned c rfl]
  rw [captures_word, hsame, if_neg hne]

theorem takeWhile_eq_iff (credential : Credential) {after : List Char}
    (hafter : after <:+ credential.text) :
    ((after ++ ['"']).takeWhile fun c => !isSpace c) = "WPA-PSK".toList ↔
      "WPA-PSK ".toList <+: after := by
  constructor
  · intro hword
    have hsplit := List.takeWhile_append_dropWhile (p := fun c => !isSpace c) (l := after ++ ['"'])
    rw [hword] at hsplit
    rcases hrest : (after ++ ['"']).dropWhile fun c => !isSpace c with _ | ⟨c, rest⟩
    · rw [hrest, List.append_nil] at hsplit
      have hlast := congrArg List.getLast? hsplit
      rw [List.getLast?_append_of_ne_nil _ (List.cons_ne_nil _ _)] at hlast
      exact absurd hlast (by decide)
    · have hblank : isSpace c = true := by
        have hnot := List.head?_dropWhile_not (fun c => !isSpace c) (after ++ ['"'])
        rw [hrest] at hnot
        simpa using hnot
      rw [hrest] at hsplit
      rcases List.eq_nil_or_concat rest with rfl | ⟨initial, last, rfl⟩
      · obtain ⟨-, hquote⟩ := List.append_singleton_inj.mp hsplit
        rw [hquote] at hblank
        exact absurd hblank (by decide)
      · rw [List.concat_eq_append, ← List.cons_append, ← List.append_assoc] at hsplit
        obtain ⟨hwhole, -⟩ := List.append_singleton_inj.mp hsplit
        have hspace := credential.eq_space (hafter.subset (hwhole ▸ List.mem_append_right _
          List.mem_cons_self)) hblank
        rw [← hwhole, hspace]
        exact ⟨initial, rfl⟩
  · rintro ⟨rest, rfl⟩
    rfl

theorem search_keyMgmt_eq_iff :
    groupOf (search (assigned "key_mgmt".toList word)
        (wpaSettingsContent ssid.text password.text)) = "WPA-PSK".toList ↔
      ∀ after, (assignments "key_mgmt".toList ssid.text ++
        assignments "key_mgmt".toList password.text).head? = some after →
          "WPA-PSK ".toList <+: after := by
  have hquote : Delimits "key_mgmt".toList '"' := by constructor <;> decide
  have hhead : assignments "key_mgmt".toList head = [] := by decide +kernel
  have hmiddle : assignments "key_mgmt".toList middle = [] := by decide +kernel
  have htail : (assignments "key_mgmt".toList tail).findSome? word.captures =
      some ["WPA-PSK".toList] := by decide +kernel
  rw [search_assigned ways_word_space, assignments_wpaSettingsContent hquote, hhead, hmiddle,
    List.map_nil, List.nil_append, List.map_nil, List.nil_append]
  cases hssid : assignments "key_mgmt".toList ssid.text with
  | cons after afters =>
    have hafter : after ∈ assignments "key_mgmt".toList ssid.text := by
      rw [hssid]
      exact List.mem_cons_self
    have hvalue := captures_word_append hafter
      (middle.tail ++ '"' :: (password.text ++ '"' :: tail))
    rw [← List.cons_append, ← middle_eq] at hvalue
    rw [List.map_cons, List.cons_append, List.findSome?_cons, hvalue]
    simp only [List.cons_append, List.head?_cons, Option.some.injEq, forall_eq']
    exact takeWhile_eq_iff ssid (suffix_of_mem_assignments hafter)
  | nil =>
    rw [List.map_nil, List.nil_append, List.nil_append]
    cases hpassword : assignments "key_mgmt".toList password.text with
    | cons after afters =>
      have hafter : after ∈ assignments "key_mgmt".toList password.text := by
        rw [hpassword]
        exact List.mem_cons_self
      have hvalue := captures_word_append hafter tail.tail
      rw [← tail_eq] at hvalue
      rw [List.map_cons, List.cons_append, List.findSome?_cons, hvalue]
      simp only [List.head?_cons, Option.some.injEq, forall_eq']
      exact takeWhile_eq_iff password (suffix_of_mem_assignments hafter)
    | nil =>
      rw [List.map_nil, List.nil_append, htail]
      exact iff_of_true rfl nofun

/-- The settings survive exactly when neither credential assigns another value. -/
theorem roundTrip_iff_keepsClear (os : LinuxOperationSystem) :
    RoundTrip os ssid password ↔ KeepsClear ssid password := by
  have hpsk : (((assignments "psk".toList ssid.text).find? opensQuote).getD
      ('"' :: password.text)).tail = password.text ↔
      ∀ after, (assignments "psk".toList ssid.text).find? opensQuote = some after →
        after = '"' :: password.text := by
    cases hfind : (assignments "psk".toList ssid.text).find? opensQuote with
    | none => exact iff_of_true rfl nofun
    | some after =>
      have hopens := List.find?_some hfind
      simp only [Option.getD_some, Option.some.injEq, forall_eq']
      obtain ⟨c, text, rfl⟩ := opensQuote_iff.mp hopens
      rw [List.tail_cons, List.cons.injEq, and_iff_right rfl]
  unfold RoundTrip KeepsClear LinuxOperationSystem.setWifiCredentials
    LinuxOperationSystem.getWpaConfig
  dsimp only
  rw [Except.ok.injEq, WpaConfig.mk.injEq, search_ssid, search_psk, hpsk, search_keyMgmt_eq_iff]
  exact and_iff_right rfl

end reading

/-- The name of a network that opens a passphrase of its own. -/
def assigning : Credential := ⟨"psk=\"x".toList, by decide, by simp⟩

def passphrase : Credential := ⟨"password".toList, by decide, by simp⟩

theorem not_roundTrip_assigning : ¬ RoundTrip {} assigning passphrase ∧
    (({} : LinuxOperationSystem).setWifiCredentials assigning.text passphrase.text).getWpaConfig =
      .ok ⟨"psk=\"x".toList, "x".toList, "WPA-PSK".toList⟩ := by
  have hread : (({} : LinuxOperationSystem).setWifiCredentials assigning.text
      passphrase.text).getWpaConfig = .ok ⟨"psk=\"x".toList, "x".toList, "WPA-PSK".toList⟩ := by
    decide +kernel
  refine ⟨?_, hread⟩
  rw [RoundTrip, hread, Except.ok.injEq, WpaConfig.mk.injEq]
  rintro ⟨-, hpsk, -⟩
  exact absurd hpsk (by decide)

end VacuumCleaner.Core.WifiCredentials
