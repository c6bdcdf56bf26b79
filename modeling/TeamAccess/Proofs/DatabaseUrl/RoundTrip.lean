import TeamAccess.Proofs.DatabaseUrl.Host
import TeamAccess.Proofs.DatabaseUrl.Options
import TeamAccess.Proofs.Outcome

/-! # Reading back a database URL

A URL that some text spells is written in a text that spells it again, with the options in the order
of their names. The one exception is a host that is written without brackets and looks as if it had
them: what is read then is the host between the brackets, and nothing of what follows them, unless
the host ends there.
-/

namespace TeamAccess.DatabaseUrl

open Text

variable {text : String} {u : DatabaseUrl}

theorem parse_eq_ok_iff : parse text = .ok u ↔
    ∃ driver credentials host port database rest₁ rest₂ rest₃ rest₄ rest₅,
      readDriver text.toList = .ok (driver, rest₁) ∧
      readCredentials rest₁ = (credentials, rest₂) ∧ readHost rest₂ = (host, rest₃) ∧
      readPort rest₃ = .ok (port, rest₄) ∧ readDatabase rest₄ = (database, rest₅) ∧
      u = ⟨driver, credentials.map (·.1), credentials.bind (·.2), host, port, database,
        readOptions rest₅⟩ := by
  simp only [parse, bind_eq_ok_iff, Prod.exists]
  constructor
  · rintro ⟨driver, rest₁, hd, port, rest₄, hp, h⟩
    cases h
    exact ⟨driver, _, _, port, _, rest₁, _, _, rest₄, _, hd, rfl, rfl, hp, rfl, rfl⟩
  · rintro ⟨driver, credentials, host, port, database, rest₁, rest₂, rest₃, rest₄, rest₅, hd, hc,
      hh, hp, hb, rfl⟩
    refine ⟨driver, rest₁, hd, port, rest₄, ?_, ?_⟩
    · rw [hc, hh]
      exact hp
    · simp only [hc, hh, hb]
      rfl

/-- What a URL satisfies that some text spells. -/
structure Spelled (u : DatabaseUrl) : Prop where
  driver : u.driver ≠ "" ∧ ∀ c ∈ u.driver.toList, isDriver c = true
  password : u.username = none → u.password = none
  host : ∀ host ∈ u.host, Hostname host.toList
  signs : u.password = none → ∀ host ∈ u.host, '@' ∉ host.toList
  port : ∀ n ∈ u.port, (Nat.toDigits 10 n.natAbs).length ≤ Numeral.maxDigits
  options : Grouped u.options

theorem spelled_of_parse (h : parse text = .ok u) : Spelled u := by
  obtain ⟨driver, credentials, host, port, database, rest₁, rest₂, rest₃, rest₄, rest₅, hd, hc, hh,
    hp, hb, rfl⟩ := parse_eq_ok_iff.mp h
  refine ⟨isDriver_of_readDriver hd, ?_, ?_, ?_, length_le_of_readPort hp, grouped_readOptions _⟩
  · intro hn
    rw [Option.map_eq_none_iff.mp hn]
    rfl
  · rintro name rfl
    exact (hostname_of_readHost hh).1
  · rintro hp name rfl
    exact (hostname_of_readHost hh).2 (signsBehindSlash_of_readCredentials hc hp)

section Written

theorem renderHost_of_mem {host : String} (h : ':' ∈ host.toList) :
    (renderHost host).toList = '[' :: (host.toList ++ [']']) := by
  have colon : host.contains ':' = true := by simpa using h
  rw [renderHost, if_pos colon]
  change ("[" ++ host ++ "]").toList = _
  simp

theorem renderHost_of_not_mem {host : String} (h : ':' ∉ host.toList) : renderHost host = host :=
  if_neg (by simpa using h)

/-- A host as it is written. -/
def writtenHost (host : Option String) : List Char :=
  (host.map fun name => (renderHost name).toList).getD []

theorem writtenHost_of_not_mem {host : String} (h : ':' ∉ host.toList) :
    writtenHost (some host) = host.toList := congrArg String.toList (renderHost_of_not_mem h)

/-- What is written behind the host. -/
def writtenTail (u : DatabaseUrl) : List Char :=
  writtenPort u.port ++ (writtenDatabase u.database ++ (renderOptions u.options).toList)

theorem toList_render (u : DatabaseUrl) : u.render.toList =
    u.driver.toList ++ ':' :: '/' :: '/' ::
      (u.renderCredentials.toList ++ (writtenHost u.host ++ u.writtenTail)) := by
  have host : ((u.host.map renderHost).getD "").toList = writtenHost u.host := by
    cases hh : u.host <;> rfl
  have port : ((u.port.map fun n => s!":{n}").getD "").toList = writtenPort u.port := by
    cases hp : u.port with
    | none => rfl
    | some n => simp [writtenPort]; rfl
  have database : ((u.database.map fun d => "/" ++ Percent.encodeString " +/" d).getD "").toList =
      writtenDatabase u.database := by
    cases hd : u.database with
    | none => rfl
    | some d => simp [writtenDatabase, Percent.encodeString]
  simp only [render, String.toList_append, host, port, database, writtenTail, List.append_assoc]
  rfl

theorem readCredentials_written (hp : u.username = none → u.password = none) {body : List Char}
    (hb : u.password = none → '@' ∉ body) :
    readCredentials (u.renderCredentials.toList ++ body) =
      (u.username.map (·, u.password), body) := by
  unfold renderCredentials
  cases hn : u.username with
  | none =>
    rw [hp hn]
    exact readCredentials_none (hb (hp hn))
  | some name =>
    cases hw : u.password with
    | none =>
      have written : (Percent.encodeString " +" name ++ "@").toList ++ body =
          writtenName name ++ '@' :: body := by
        simp [Percent.encodeString, writtenName]
      exact (congrArg _ written).trans (readCredentials_name (hb hw) name)
    | some password =>
      have written : (Percent.encodeString " +" name ++ ":" ++
          Percent.encodeString " +" password ++ "@").toList ++ body =
          writtenName name ++ ':' :: (writtenName password ++ '@' :: body) := by
        simp [Percent.encodeString, writtenName]
      exact (congrArg _ written).trans (readCredentials_password name password body)

theorem at_not_mem_writtenTail (u : DatabaseUrl) : '@' ∉ u.writtenTail :=
  List.not_mem_append (not_mem_writtenPort (by decide) (by decide) (by decide) _)
    (List.not_mem_append (not_mem_writtenDatabase (by decide) (by decide) (by decide) _)
      (at_not_mem_renderOptions _))

theorem begins_writtenDatabase_options (u : DatabaseUrl) :
    Begins ['/', '?'] (writtenDatabase u.database ++ (renderOptions u.options).toList) :=
  begins_writtenDatabase (begins_renderOptions _) _

theorem afterHost_writtenTail (u : DatabaseUrl) : AfterHost u.writtenTail :=
  afterHost_writtenPort u.begins_writtenDatabase_options _

theorem at_not_mem_writtenHost (h : ∀ host ∈ u.host, '@' ∉ host.toList) :
    '@' ∉ writtenHost u.host := by
  cases hh : u.host with
  | none => exact List.not_mem_nil
  | some name =>
    have plain := h name hh
    by_cases hc : ':' ∈ name.toList
    · simp [writtenHost, renderHost_of_mem hc, plain]
    · rwa [writtenHost_of_not_mem hc]

end Written

section Back

/-- A host that is written without brackets and looks as if it had them. -/
def LooksBracketed (host : String) : Prop := ':' ∉ host.toList ∧ Enclosed host.toList

theorem readHost_written (hh : ∀ host ∈ u.host, Hostname host.toList)
    (hl : ∀ host ∈ u.host, ¬ LooksBracketed host) :
    readHost (writtenHost u.host ++ u.writtenTail) = (u.host, u.writtenTail) := by
  have tail := u.afterHost_writtenTail
  cases hu : u.host with
  | none => exact readHost_none tail.begins
  | some host =>
    have inner := hh host hu
    by_cases hc : ':' ∈ host.toList
    · have written : writtenHost (some host) = '[' :: (host.toList ++ ']' :: []) :=
        renderHost_of_mem hc
      have none : ∀ c ∈ ([] : List Char), isInner c = true := fun _ hm => nomatch hm
      rw [written, readHost_enclosed inner none List.not_mem_nil tail, String.ofList_toList]
      rfl
    · rw [writtenHost_of_not_mem hc, readHost_plain inner hc (fun he => hl host hu ⟨hc, he⟩) tail,
        String.ofList_toList]

/-- Driver and credentials are read back, whatever is read behind them. -/
theorem Spelled.parse_render_of_parts (h : Spelled u) {host database : Option String}
    {port : Option Int} {rest₃ rest₄ rest₅ : List Char}
    (hh : readHost (writtenHost u.host ++ u.writtenTail) = (host, rest₃))
    (hp : readPort rest₃ = .ok (port, rest₄)) (hb : readDatabase rest₄ = (database, rest₅)) :
    parse u.render = .ok ⟨u.driver, u.username, u.password, host, port, database,
      readOptions rest₅⟩ := by
  have driver := readDriver_written h.driver.1 h.driver.2
    (u.renderCredentials.toList ++ (writtenHost u.host ++ u.writtenTail))
  have credentials := readCredentials_written h.password fun hn =>
    List.not_mem_append (at_not_mem_writtenHost (h.signs hn)) u.at_not_mem_writtenTail
  have name : (u.username.map (·, u.password)).map (·.1) = u.username := by
    cases u.username <;> rfl
  have word : (u.username.map (·, u.password)).bind (·.2) = u.password := by
    cases hn : u.username with
    | none => exact (h.password hn).symm
    | some name => rfl
  rw [← toList_render] at driver
  refine parse_eq_ok_iff.mpr ⟨_, _, _, _, _, _, _, _, _, _, driver, credentials, hh, hp, hb, ?_⟩
  rw [name, word]

/-- The parts behind the host are read back. -/
theorem Spelled.readTail (h : Spelled u) :
    ∃ rest₄ rest₅, readPort u.writtenTail = .ok (u.port, rest₄) ∧
      readDatabase rest₄ = (u.database, rest₅) ∧ readOptions rest₅ = sortedBy (·.1) u.options :=
  ⟨_, _, readPort_written h.port u.begins_writtenDatabase_options,
    readDatabase_written (begins_renderOptions _) _, readOptions_renderOptions h.options⟩

/-- A URL is read back from its text, unless its host looks bracketed. -/
theorem parse_render (h : Spelled u) (hl : ∀ host ∈ u.host, ¬ LooksBracketed host) :
    parse u.render = .ok { u with options := sortedBy (·.1) u.options } := by
  obtain ⟨rest₄, rest₅, hp, hb, ho⟩ := h.readTail
  rw [h.parse_render_of_parts (readHost_written h.host hl) hp hb, ho]

/-- Nothing is read of what begins none of the parts behind the host. -/
theorem readTail_of_isHost {c : Char} (h : isHost c = true) (rest : List Char) :
    readPort (c :: rest) = .ok (none, c :: rest) ∧ readDatabase (c :: rest) = (none, c :: rest) ∧
      readOptions (c :: rest) = [] := by
  simp only [isHost, Bool.and_eq_true, bne_iff_ne] at h
  obtain ⟨⟨slash, colon⟩, mark⟩ := h
  refine ⟨readPort_none fun tail ht => colon (List.cons.inj ht).1, ?_, ?_⟩
  · unfold readDatabase
    split
    · exact absurd (List.cons.inj ‹_›).1 slash
    · rfl
  · unfold readOptions
    split
    · exact absurd (List.cons.inj ‹_›).1 mark
    · rfl

/-- What is read where the host looks bracketed. -/
def rebracketed (u : DatabaseUrl) (inner after : List Char) : DatabaseUrl :=
  if after = [] then
    { u with host := some (String.ofList inner), options := sortedBy (·.1) u.options }
  else
    { u with host := some (String.ofList inner), port := none, database := none, options := [] }

section Rebracketed

variable (inner after : List Char)

@[simp] theorem rebracketed_driver : (u.rebracketed inner after).driver = u.driver := by
  unfold rebracketed
  split <;> rfl

@[simp] theorem rebracketed_username : (u.rebracketed inner after).username = u.username := by
  unfold rebracketed
  split <;> rfl

@[simp] theorem rebracketed_password : (u.rebracketed inner after).password = u.password := by
  unfold rebracketed
  split <;> rfl

@[simp] theorem rebracketed_host :
    (u.rebracketed inner after).host = some (String.ofList inner) := by
  unfold rebracketed
  split <;> rfl

variable {inner after} in
theorem rebracketed_host_ne {host : String} (hu : u.host = some host)
    (he : host.toList = '[' :: (inner ++ ']' :: after)) :
    (u.rebracketed inner after).host ≠ u.host := by
  rw [rebracketed_host, hu]
  intro same
  have longer := congrArg List.length he
  rw [← Option.some.inj same, String.toList_ofList] at longer
  simp only [List.length_cons, List.length_append] at longer
  omega

theorem length_writtenTail_rebracketed (h : Grouped u.options) :
    (u.rebracketed inner after).writtenTail.length ≤ u.writtenTail.length := by
  unfold rebracketed
  split
  · rw [writtenTail, h.renderOptions_sortedBy]
    rfl
  · simp [writtenTail, writtenPort, writtenDatabase]

end Rebracketed

theorem parse_render_of_looksBracketed (h : Spelled u) {host : String} (hu : u.host = some host)
    (hc : ':' ∉ host.toList) {inner after : List Char}
    (he : host.toList = '[' :: (inner ++ ']' :: after)) (hi : inner ≠ []) (ha : ']' ∉ after) :
    parse u.render = .ok (u.rebracketed inner after) := by
  have written : writtenHost u.host = '[' :: (inner ++ ']' :: after) := by
    rw [hu, writtenHost_of_not_mem hc, he]
  have all := (h.host host hu).inner
  rw [he, List.forall_mem_cons, List.forall_mem_append, List.forall_mem_cons] at all
  obtain ⟨-, innerAll, -, afterAll⟩ := all
  have read := readHost_enclosed ⟨hi, innerAll⟩ afterAll ha u.afterHost_writtenTail
  rw [← written] at read
  -- the host ends at its last bracket, or goes on with what begins none of the parts behind it
  cases after with
  | nil =>
    obtain ⟨rest₄, rest₅, hp, hb, ho⟩ := h.readTail
    rw [h.parse_render_of_parts read hp hb, ho]
    rfl
  | cons c after =>
    have colon : c ≠ ':' := by
      rintro rfl
      exact hc (he ▸ by simp)
    have plain := isHost_iff.mpr ⟨afterAll c List.mem_cons_self, colon⟩
    obtain ⟨hp, hb, ho⟩ := readTail_of_isHost plain (after ++ u.writtenTail)
    rw [h.parse_render_of_parts read hp hb, ho]
    rfl

/-- The text of a URL with its options in order is the same. -/
theorem render_sortedBy (h : Grouped u.options) :
    { u with options := sortedBy (·.1) u.options }.render = u.render := by
  rw [render, render, h.renderOptions_sortedBy]
  rfl

/-- What is read where the host looks bracketed has a shorter text. -/
theorem length_render_rebracketed (h : Grouped u.options) {host : String}
    (hu : u.host = some host) (hc : ':' ∉ host.toList) {inner after : List Char}
    (he : host.toList = '[' :: (inner ++ ']' :: after)) :
    (u.rebracketed inner after).render.toList.length < u.render.toList.length := by
  have innerColon : ':' ∉ (String.ofList inner).toList := by
    rw [String.toList_ofList]
    exact fun hm => hc (he ▸ by simp [hm])
  have written : writtenHost u.host = '[' :: (inner ++ ']' :: after) := by
    rw [hu, writtenHost_of_not_mem hc, he]
  have short : writtenHost (some (String.ofList inner)) = inner := by
    rw [writtenHost_of_not_mem innerColon, String.toList_ofList]
  have credentials : (u.rebracketed inner after).renderCredentials = u.renderCredentials := by
    simp only [renderCredentials, rebracketed_username, rebracketed_password]
  have tail := u.length_writtenTail_rebracketed inner after h
  rw [toList_render, toList_render, written, credentials, rebracketed_driver, rebracketed_host,
    short]
  simp only [List.length_append, List.length_cons]
  omega

end Back

end TeamAccess.DatabaseUrl
