import MapADroid.Madmin.ResourceEndpoint

/- A rejected settings request, and what it has stored.

   Whatever ends a request before the commit in its middle leaves nothing, since the
   session is rolled back. After the commit, the lists of a walker or a mon list and the
   walker of a walkerarea are handled, which are no attributes of the object: a value they
   cannot work with raises, the request is answered as failed, and the object stays
   (`rejected_unchanged_iff`). -/
namespace MapADroid.Madmin
open Lib Request

variable {Db α : Type}

/-- It raises. -/
def Fails (result : Except Error α) : Prop := ∃ err, result = .error err

/-- What the keys of an endpoint cannot work with. -/
def Raises (b : Backend Db) : Endpoint → String → Json → Prop
  | .device, key, value => key = "walker" ∧ Fails (b.toInt value)
  | .monIvList, key, value => key = "mon_ids_iv" ∧ Fails value.elements
  | .walker, key, value => key = "setup" ∧ Fails value.elements
  | .walkerarea, key, value => key = "walker_id" ∧ Fails (b.walkerareasOf value)
  | _, _, _ => False

/-! ## What the handlers raise -/

section
variable {b : Backend Db} {s : Session Db}

@[simp] theorem call_raising (result : Except Error α) (s : Session Db) :
    call (raising result) s = (result.mapError Exit.raised, s) := by
  cases result <;> rfl

@[simp] theorem call_giveUp (answer : Answer) (s : Session Db) :
    call (giveUp answer : Request Db α) s = (.error (.answered answer), { s with commitTrigger := false }) := rfl

/-- Raises if `p` and then only, whatever the session, and leaves what is committed. -/
abbrev RaisesIff (p : Prop) (m : Request Db α) : Prop :=
  Settles (fun exit => ∃ err, exit = Exit.raised err) Session.committed p m

theorem raising_settles (result : Except Error α) : RaisesIff (Fails result) (raising result : Request Db α) where
  kept s := by rw [call_raising]
  raises h s := by
    obtain ⟨err, rfl⟩ := h
    exact ⟨_, ⟨err, rfl⟩, rfl⟩
  returns h s := by
    cases result with
    | ok a => exact ⟨a, rfl⟩
    | error err => exact absurd ⟨err, rfl⟩ h

/-- Rows are deleted and new ones added for the elements of a value: the second raises if it has none. -/
theorem replace_settles (ids : Json) {delete : Session Db → Session Db} {insert : List Json → Session Db → Session Db}
    (hdelete : ∀ s, (delete s).committed = s.committed)
    (hinsert : ∀ elements s, (insert elements s).committed = s.committed) :
    RaisesIff (Fails ids.elements) (do
      modify delete
      let elements ← raising ids.elements
      modify (insert elements) : Request Db Unit) := by
  apply Settles.congr (p := False ∨ Fails ids.elements ∨ False)
  · simp only [false_or, or_false]
  · apply Settles.bind (Settles.modify hdelete)
    intro _
    apply Settles.bind (raising_settles _)
    intro elements
    exact Settles.modify (hinsert elements)

theorem setMonIds_settles (monlistId ids : Json) :
    RaisesIff (Fails ids.elements) (MonIvListEndpoint.setMonIds b monlistId ids) :=
  replace_settles ids (fun _ => rfl) fun _ _ => rfl

theorem setWalkerareas_settles (walkerId walkerAreas : Json) :
    RaisesIff (Fails walkerAreas.elements) (WalkerEndpoint.setWalkerareas b walkerId walkerAreas) :=
  replace_settles walkerAreas (fun _ => rfl) fun _ _ => rfl

/-- A handler that looks at one key only. -/
theorem ite_settles {p : Prop} {key name : String} {m : Request Db (DbEntry × Bool)} {entry : DbEntry}
    (hm : RaisesIff p m) : RaisesIff (key = name ∧ p) (if key = name then m else pure (entry, false)) := by
  by_cases hkey : key = name
  · rw [if_pos hkey]
    apply hm.congr
    simp only [hkey, true_and]
  · rw [if_neg hkey]
    apply (Settles.pure _).congr
    simp only [hkey, false_and]

theorem walkerarea_settles (entry : DbEntry) (key : String) (value : Json) :
    RaisesIff (key = "walker_id" ∧ Fails (b.walkerareasOf value))
      (WalkerareaEndpoint.handleAdditionalKeys b entry key value) := by
  unfold WalkerareaEndpoint.handleAdditionalKeys
  apply ite_settles
  apply Settles.congr (p := Fails (b.walkerareasOf value) ∨ False)
  · simp only [or_false]
  · apply Settles.bind (raising_settles _)
    intro rowsIn
    apply Settles.get
    intro s
    dsimp only
    split
    · exact Settles.pure _
    · apply Settles.congr (p := False ∨ False)
      · simp only [or_false]
      · apply Settles.bind
        · exact Settles.modify fun _ => rfl
        · intro _
          exact Settles.pure _

theorem device_fails_iff (entry : DbEntry) (key : String) (value : Json) :
    Fails (DeviceEndpoint.handleAdditionalKeys b entry key value) ↔ key = "walker" ∧ Fails (b.toInt value) := by
  unfold DeviceEndpoint.handleAdditionalKeys
  by_cases hmail : key = "ggl_login_mail"
  · -- The mail is stored as it comes, whatever it is.
    rw [if_pos hmail]
    have hwalker : key ≠ "walker" := by
      rw [hmail]
      decide
    simp [Fails, hwalker]
  · rw [if_neg hmail]
    by_cases hwalker : key = "walker"
    · rw [if_pos hwalker]
      cases hvalue : b.toInt value with
      | ok n => simp [Fails]
      | error err => simp [Fails, hwalker]
    · rw [if_neg hwalker]
      simp [Fails, hwalker]

theorem handleAdditionalKeys_settles (e : Endpoint) (entry : DbEntry) (key : String) (value : Json) :
    RaisesIff (Raises b e key value) (handleAdditionalKeys b e entry key value) := by
  cases e with
  | device => exact (raising_settles _).congr (device_fails_iff entry key value)
  | monIvList =>
    apply ite_settles
    apply Settles.congr (p := Fails value.elements ∨ False ∨ False)
    · simp only [or_false]
    · apply Settles.bind (setMonIds_settles _ _)
      intro _
      apply Settles.bind
      · exact Settles.modify fun _ => rfl
      · intro _
        exact Settles.pure _
  | walker =>
    apply ite_settles
    apply Settles.congr (p := Fails value.elements ∨ False)
    · simp only [or_false]
    · apply Settles.bind (setWalkerareas_settles _ _)
      intro _
      exact Settles.pure _
  | walkerarea => exact walkerarea_settles entry key value
  | _ => exact Settles.pure _

/-- The loop after the commit raises if a key that is left to it does. -/
theorem handleOthers_settles (e : Endpoint) (handled : List String) (items : List (String × Json))
    (entry : DbEntry) :
    RaisesIff (∃ item ∈ items, item.1 ∉ handled ∧ Raises b e item.1 item.2)
      (handleOthers b e handled items entry) := by
  induction items generalizing entry with
  | nil =>
    apply (Settles.pure entry).congr
    simp
  | cons item items ih =>
    obtain ⟨key, value⟩ := item
    rw [handleOthers]
    by_cases hkey : key ∈ handled
    · rw [if_pos hkey]
      apply (ih entry).congr
      simp [hkey]
    · rw [if_neg hkey]
      apply ((handleAdditionalKeys_settles e entry key value).bind fun r => ih r.1).congr
      simp [hkey]

end

/-! ## What is stored -/

section
variable (b : Backend Db)

/-- What a handler makes of the entry alone. -/
def entryKeys (e : Endpoint) (entry : DbEntry) (key : String) (value : Json) : Except Error (DbEntry × Bool) :=
  match e with
  | .auth => .ok (AuthEndpoint.handleAdditionalKeys entry key value)
  | .device => DeviceEndpoint.handleAdditionalKeys b entry key value
  | .geofence => .ok (GeofenceEndpoint.handleAdditionalKeys b entry key value)
  | .pogoauth => .ok (PogoauthEndpoint.handleAdditionalKeys entry key value)
  | .routecalc => .ok (RoutecalcEndpoint.handleAdditionalKeys b entry key value)
  | .area | .devicepool | .monIvList | .walker | .walkerarea => .ok (entry, false)

/-- What an item of the data makes of the entry. -/
def attributeSet (db : Db) (e : Endpoint) (vars : List Attribute) (entry : DbEntry) (item : String × Json) :
    Except Exit DbEntry :=
  match settable e vars item.1 with
  | none => .ok entry
  | some a => do
    let r ← (entryKeys b e entry item.1 item.2).mapError .raised
    if r.2 then .ok r.1
    else do
      let found ← (present b db r.1 a).mapError .raised
      if !found && item.2.isNull then .error (.answered (.missing [item.1]))
      else (assign b r.1 (convert item.2) a).mapError .raised

/-- What the data makes of the entry. -/
def attributesSet (db : Db) (e : Endpoint) (vars : List Attribute) :
    List (String × Json) → DbEntry → Except Exit DbEntry
  | [], entry => .ok entry
  | item :: items, entry => do
    let entry ← attributeSet b db e vars entry item
    attributesSet db e vars items entry

/-- What the commit in the middle writes: the database after it, and the object as it is read again. -/
def stored (e : Endpoint) (identifier : Option String) (methodology : DataHandlingMethodology)
    (data : Dict String Json) (db : Db) : Except Exit (Db × Except Error DbEntry) := do
  let opened ← (openEntry b db e identifier methodology data).mapError .raised
  if missing e opened.2 data ≠ [] then .error (.answered (.missing (missing e opened.2 data)))
  else do
    let entry ← attributesSet b opened.1 e opened.2.table.vars data.items opened.2
    let written ← (b.flush opened.1 (some entry) []).mapError .raised
    .ok (written.1, b.refresh written.1 written.2)

end

section
variable {b : Backend Db} {e : Endpoint} {t : Table}

/-- The keys of lists are no attributes. -/
theorem handleAdditionalKeys_of_attribute {key : String} {a : Attribute} (ht : t.endpoint = e)
    (ha : Table.attribute? t.vars key = some a) (entry : DbEntry) (value : Json) :
    (handleAdditionalKeys b e entry key value : Request Db _) = raising (entryKeys b e entry key value) := by
  subst ht
  have hne : ∀ name, Table.attribute? t.vars name = none → key ≠ name := by
    rintro name hname rfl
    rw [hname] at ha
    cases ha
  cases t with
  | monivlist => exact if_neg (hne "mon_ids_iv" (by decide))
  | walker => exact if_neg (hne "setup" (by decide))
  | walkerarea => exact if_neg (hne "walker_id" (by decide))
  | _ => rfl

theorem attribute_of_settable {vars : List Attribute} {key : String} {a : Attribute}
    (h : settable e vars key = some a) : Table.attribute? vars key = some a := by
  unfold settable at h
  split at h
  · cases h
  · exact h

/-- One turn of the loop before the commit. -/
theorem call_setAttributes_cons (ht : t.endpoint = e) (item : String × Json) (items : List (String × Json))
    (entry : DbEntry) (handled : List String) {s : Session Db} (htrigger : s.commitTrigger = false) :
    ∃ more : List String, (∀ key ∈ more, key ∈ handled ∨ (Table.attribute? t.vars key).isSome) ∧
      call (setAttributes b e t.vars (item :: items) entry handled) s =
        andThen (fun entry => setAttributes b e t.vars items entry more)
          (attributeSet b s.current e t.vars entry item, s) := by
  obtain ⟨key, value⟩ := item
  simp only [setAttributes, attributeSet]
  cases ha : settable e t.vars key with
  | none => exact ⟨handled, fun _ => Or.inl, rfl⟩
  | some a =>
    have hattribute := attribute_of_settable ha
    dsimp only
    rw [handleAdditionalKeys_of_attribute ht hattribute]
    cases hkeys : entryKeys b e entry key value with
    | error err => exact ⟨handled, fun _ => Or.inl, rfl⟩
    | ok r =>
      obtain ⟨entry, done⟩ := r
      cases done with
      | true =>
        refine ⟨key :: handled, ?_, rfl⟩
        intro k hk
        rcases List.mem_cons.mp hk with rfl | hk
        · rw [hattribute]
          exact .inr rfl
        · exact .inl hk
      | false =>
        -- Not handled: a value is missing, or the attribute is set.
        refine ⟨handled, fun _ => Or.inl, ?_⟩
        cases hfound : present b s.current entry a with
        | error err => simp [hfound]
        | ok found =>
          by_cases hmissing : found = false ∧ value.isNull = true
          · have hsame : ({ s with commitTrigger := false } : Session Db) = s := by rw [← htrigger]
            simp [hfound, hmissing, hsame]
          · cases hassign : assign b entry (convert value) a with
            | error err => simp [hfound, hmissing, hassign]
            | ok entry => simp [hfound, hmissing, hassign]

/-- The loop before the commit leaves the session as it is. -/
theorem call_setAttributes (ht : t.endpoint = e) (items : List (String × Json)) (entry : DbEntry)
    (handled : List String) {s : Session Db} (htrigger : s.commitTrigger = false) :
    ∃ more : List String, (∀ key ∈ more, key ∈ handled ∨ (Table.attribute? t.vars key).isSome) ∧
      call (setAttributes b e t.vars items entry handled) s =
        ((attributesSet b s.current e t.vars items entry).map fun entry => (entry, more), s) := by
  induction items generalizing entry handled with
  | nil => exact ⟨handled, fun _ => Or.inl, rfl⟩
  | cons item items ih =>
    obtain ⟨more, hmore, hcall⟩ := call_setAttributes_cons (b := b) ht item items entry handled htrigger
    rw [hcall, attributesSet]
    cases hset : attributeSet b s.current e t.vars entry item with
    | error exit => exact ⟨more, hmore, rfl⟩
    | ok entry =>
      obtain ⟨further, hfurther, hrest⟩ := ih entry more
      refine ⟨further, ?_, hrest⟩
      intro key hkey
      exact (hfurther key hkey).elim (hmore key) Or.inr

/-- What every turn of the loop made of the entry. -/
theorem attributeSet_of_attributesSet {db : Db} {vars : List Attribute} {items : List (String × Json)}
    {entry entry' : DbEntry} (h : attributesSet b db e vars items entry = .ok entry') {item : String × Json}
    (hitem : item ∈ items) : ∃ u v, attributeSet b db e vars u item = .ok v := by
  induction items generalizing entry with
  | nil => cases hitem
  | cons first items ih =>
    rw [attributesSet] at h
    obtain ⟨next, hone, hrest⟩ := bind_eq_ok_iff.mp h
    rcases List.mem_cons.mp hitem with rfl | hmem
    · exact ⟨entry, next, hone⟩
    · exact ih hrest hmem

/-- What was handled before the commit has not raised. -/
theorem attribute_eq_none_of_raises {db : Db} (ht : t.endpoint = e) {items : List (String × Json)}
    {entry entry' : DbEntry} (hset : attributesSet b db e t.vars items entry = .ok entry') {item : String × Json}
    (hitem : item ∈ items) (h : Raises b e item.1 item.2) : Table.attribute? t.vars item.1 = none := by
  subst ht
  obtain ⟨u, v, hone⟩ := attributeSet_of_attributesSet hset hitem
  obtain ⟨key, value⟩ := item
  cases t with
  | monivlist =>
    obtain ⟨rfl, -⟩ := h
    show Table.attribute? Table.monivlist.vars "mon_ids_iv" = none
    decide
  | walker =>
    obtain ⟨rfl, -⟩ := h
    show Table.attribute? Table.walker.vars "setup" = none
    decide
  | walkerarea =>
    obtain ⟨rfl, -⟩ := h
    show Table.attribute? Table.walkerarea.vars "walker_id" = none
    decide
  | device =>
    -- The walker of a device is an attribute: its turn would have raised.
    exfalso
    have hfails := (device_fails_iff u key value).mpr h
    obtain ⟨rfl, -⟩ := h
    obtain ⟨err, herr⟩ := hfails
    have hsettable : settable .device Table.device.vars "walker" = some (.relationship "walker") := by decide
    simp only [attributeSet, Table.endpoint, hsettable, entryKeys, herr, mapError_error, error_bind] at hone
    cases hone
  | _ => exact h.elim

/-! ## What a request leaves -/

theorem createInstance_endpoint {db : Db} {identifier : Option String} {data : Dict String Json}
    {opened : Db × DbEntry} (h : createInstance b db e identifier data = .ok opened) :
    opened.2.table.endpoint = e := by
  cases e with
  | area =>
    rw [createInstance, AreaEndpoint.createInstance] at h
    obtain ⟨mode, -, h⟩ := bind_eq_ok_iff.mp h
    cases harea : createAreaInstance mode with
    | none =>
      rw [harea] at h
      cases h
    | some area =>
      have hendpoint := createAreaInstance_endpoint harea
      obtain ⟨table, value⟩ := area
      rw [harea] at h
      dsimp only at h
      split at h
      · obtain ⟨added, -, h⟩ := bind_eq_ok_iff.mp h
        obtain rfl := Except.ok.inj h
        exact hendpoint
      · obtain rfl := Except.ok.inj h
        exact hendpoint
  | _ =>
    obtain rfl := Except.ok.inj h
    rfl

/-- The object that a request is about is one of its endpoint. -/
theorem openEntry_endpoint {db : Db} {identifier : Option String} {methodology : DataHandlingMethodology}
    {data : Dict String Json} {opened : Db × DbEntry}
    (h : openEntry b db e identifier methodology data = .ok opened) : opened.2.table.endpoint = e := by
  rw [openEntry] at h
  obtain ⟨found, hfound, h⟩ := bind_eq_ok_iff.mp h
  cases found with
  | some entry =>
    obtain rfl := Except.ok.inj h
    unfold fetched at hfound
    split at hfound
    · split at hfound
      · cases hfound
      · exact b.fetch_endpoint hfound
    · cases hfound
  | none =>
    cases methodology with
    | update => cases h
    | _ => exact createInstance_endpoint h

section
variable {identifier : Option String} {methodology : DataHandlingMethodology} {data : Dict String Json} {db : Db}

/-- Something that is done after the commit raises. -/
def FailsLater (b : Backend Db) (e : Endpoint) (data : Dict String Json) (row : Except Error DbEntry) : Prop :=
  Fails row ∨ ∃ item ∈ data.items, Raises b e item.1 item.2

/-- What ends before the commit leaves nothing. -/
theorem call_updating_of_error {exit : Exit} (h : stored b e identifier methodology data db = .error exit) :
    ∃ s, call (updating b e identifier methodology data) (Session.start db) = (.error exit, s) ∧
      s.committed = db ∧ s.commitTrigger = false := by
  rw [stored] at h
  cases hopened : openEntry b db e identifier methodology data with
  | error err =>
    rw [hopened] at h
    cases h
    refine ⟨Session.start db, ?_, rfl, rfl⟩
    simp [updating, Session.start, hopened]
  | ok opened =>
    rw [hopened, mapError_ok, ok_bind] at h
    by_cases hmissing : missing e opened.2 data = []
    · rw [if_neg (not_not_intro hmissing)] at h
      have hendpoint := openEntry_endpoint hopened
      obtain ⟨more, -, hset⟩ := call_setAttributes (b := b) hendpoint data.items opened.2 []
        (s := { Session.start db with current := opened.1 }) rfl
      dsimp only [Session.start] at hset
      cases hattributes : attributesSet b opened.1 e opened.2.table.vars data.items opened.2 with
      | error exit' =>
        rw [hattributes] at h hset
        cases h
        refine ⟨⟨db, opened.1, none, [], false⟩, ?_, rfl, rfl⟩
        simp [updating, Session.start, hopened, hmissing, hset, Except.map]
      | ok entry =>
        rw [hattributes, ok_bind] at h
        rw [hattributes] at hset
        cases hflush : b.flush opened.1 (some entry) [] with
        | error err =>
          rw [hflush] at h
          cases h
          refine ⟨⟨db, opened.1, some entry, [], false⟩, ?_, rfl, rfl⟩
          simp [updating, Session.start, hopened, hmissing, hset, Except.map, add, commit, hflush]
        | ok written =>
          rw [hflush] at h
          cases h
    · rw [if_pos hmissing] at h
      cases h
      refine ⟨⟨db, opened.1, none, [], false⟩, ?_, rfl, rfl⟩
      simp [updating, Session.start, hopened, hmissing]

/-- The commit in the middle is reached and goes through: the object is found or made, no needed attribute of it is
missing, what the data has for its attributes can be set, and the database takes it. -/
def Stores (b : Backend Db) (e : Endpoint) (identifier : Option String) (methodology : DataHandlingMethodology)
    (data : Dict String Json) (db : Db) (written : Db × Option DbEntry) : Prop :=
  ∃ opened entry, openEntry b db e identifier methodology data = .ok opened ∧ missing e opened.2 data = [] ∧
    attributesSet b opened.1 e opened.2.table.vars data.items opened.2 = .ok entry ∧
    b.flush opened.1 (some entry) [] = .ok written

theorem stored_eq_ok_iff {w : Db × Except Error DbEntry} : stored b e identifier methodology data db = .ok w ↔
    ∃ written, Stores b e identifier methodology data db written ∧ w = (written.1, b.refresh written.1 written.2) := by
  constructor
  · intro h
    obtain ⟨opened, hopened, h⟩ := bind_eq_ok_iff.mp h
    split at h
    · cases h
    · next hmissing =>
      obtain ⟨entry, hset, h⟩ := bind_eq_ok_iff.mp h
      obtain ⟨written, hflush, h⟩ := bind_eq_ok_iff.mp h
      exact ⟨written, ⟨opened, entry, mapError_eq_ok_iff.mp hopened, not_not.mp hmissing, hset,
        mapError_eq_ok_iff.mp hflush⟩, (Except.ok.inj h).symm⟩
  · rintro ⟨written, ⟨opened, entry, hopened, hmissing, hset, hflush⟩, rfl⟩
    refine bind_eq_ok_iff.mpr ⟨opened, mapError_eq_ok_iff.mpr hopened, ?_⟩
    rw [if_neg (not_not_intro hmissing)]
    exact bind_eq_ok_iff.mpr ⟨entry, hset, bind_eq_ok_iff.mpr ⟨written, mapError_eq_ok_iff.mpr hflush, rfl⟩⟩

/-- The object is saved once more after the keys that were left. -/
def closing (b : Backend Db) (e : Endpoint) (handled : List String) (items : List (String × Json))
    (methodology : DataHandlingMethodology) (entry : DbEntry) : Request Db Answer := do
  let entry ← handleOthers b e handled items entry
  save entry
  pure (if methodology = .update then .updated else .created)

theorem closing_settles (b : Backend Db) (e : Endpoint) (handled : List String) (items : List (String × Json))
    (methodology : DataHandlingMethodology) (entry : DbEntry) :
    RaisesIff (∃ item ∈ items, item.1 ∉ handled ∧ Raises b e item.1 item.2)
      (closing b e handled items methodology entry) := by
  have hsave : ∀ entry, RaisesIff False (save entry : Request Db Unit) := by
    intro entry
    apply Settles.congr (p := False ∨ False) (or_self_iff)
    apply Settles.bind
    · exact Settles.modify fun _ => rfl
    · intro _
      exact Settles.modify fun _ => rfl
  apply ((handleOthers_settles e handled items entry).bind fun entry =>
    (hsave entry).bind fun _ => Settles.pure _).congr
  simp only [or_false]

theorem status_of_closing {handled : List String} {items : List (String × Json)} {entry : DbEntry}
    {s t : Session Db} {answer : Answer}
    (h : call (closing b e handled items methodology entry) s = (.ok answer, t)) : answer.status < 400 := by
  obtain ⟨entry', u, -, hsave⟩ := call_bind_eq_ok_iff.mp h
  obtain ⟨-, v, -, hpure⟩ := call_bind_eq_ok_iff.mp hsave
  rw [call_pure] at hpure
  obtain ⟨hanswer, -⟩ := Prod.mk.inj hpure
  obtain rfl := Except.ok.inj hanswer
  cases methodology <;> decide

/-- What follows the commit raises or not, and leaves what the commit has stored. -/
theorem call_updating_of_ok {db' : Db} {row : Except Error DbEntry}
    (h : stored b e identifier methodology data db = .ok (db', row)) :
    (call (updating b e identifier methodology data) (Session.start db)).2.committed = db' ∧
      (FailsLater b e data row →
        ∃ err, (call (updating b e identifier methodology data) (Session.start db)).1 = .error (.raised err)) ∧
      (¬FailsLater b e data row → ∃ answer,
        (call (updating b e identifier methodology data) (Session.start db)).1 = .ok answer ∧
          answer.status < 400) := by
  obtain ⟨written, ⟨opened, entry, hopened, hmissing, hset, hflush⟩, hw⟩ := stored_eq_ok_iff.mp h
  obtain ⟨rfl, rfl⟩ := Prod.mk.inj hw
  have hendpoint := openEntry_endpoint hopened
  obtain ⟨more, hmore, hcall⟩ := call_setAttributes (b := b) hendpoint data.items opened.2 []
    (s := { Session.start db with current := opened.1 }) rfl
  dsimp only [Session.start] at hcall
  rw [hset] at hcall
  have hrun : call (updating b e identifier methodology data) (Session.start db) =
      andThen (closing b e more data.items methodology)
        ((b.refresh written.1 written.2).mapError Exit.raised, ⟨written.1, written.1, written.2, [], false⟩) := by
    simp [updating, refreshed, Session.start, hopened, hmissing, hcall, Except.map, add, commit, hflush]
    rfl
  -- The keys that raise were not handled before the commit.
  have hlater : (∃ item ∈ data.items, item.1 ∉ more ∧ Raises b e item.1 item.2) ↔
      ∃ item ∈ data.items, Raises b e item.1 item.2 := by
    constructor
    · rintro ⟨item, hitem, -, hraises⟩
      exact ⟨item, hitem, hraises⟩
    · rintro ⟨item, hitem, hraises⟩
      refine ⟨item, hitem, ?_, hraises⟩
      intro hhandled
      have hnone := attribute_eq_none_of_raises hendpoint hset hitem hraises
      rcases hmore item.1 hhandled with hmem | hsome
      · cases hmem
      · rw [hnone] at hsome
        cases hsome
  rw [hrun]
  cases hrow : b.refresh written.1 written.2 with
  | error err =>
    refine ⟨rfl, fun _ => ⟨err, rfl⟩, ?_⟩
    intro hnot
    exact absurd (Or.inl ⟨err, rfl⟩) hnot
  | ok entry =>
    have hsettles := (closing_settles b e more data.items methodology entry).congr hlater
    rw [mapError_ok, andThen_ok]
    refine ⟨hsettles.kept _, ?_, ?_⟩
    · intro hfails
      rcases hfails with ⟨err, herr⟩ | hfails
      · cases herr
      · obtain ⟨exit, ⟨err, rfl⟩, herr⟩ := hsettles.raises hfails ⟨written.1, written.1, written.2, [], false⟩
        exact ⟨err, herr⟩
    · intro hnot
      obtain ⟨answer, hanswer⟩ := hsettles.returns (fun hfails => hnot (.inr hfails))
        ⟨written.1, written.1, written.2, [], false⟩
      exact ⟨answer, hanswer, status_of_closing (Prod.ext hanswer rfl)⟩

/-- The request is answered with an error. -/
def Rejected (b : Backend Db) (e : Endpoint) (identifier : Option String) (methodology : DataHandlingMethodology)
    (data : Dict String Json) (db : Db) : Prop :=
  ∃ answer, (call (updateOrCreateObject b e identifier methodology data) (Session.start db)).1 = .ok answer ∧
    400 ≤ answer.status

/-- The database after the request. -/
def after (b : Backend Db) (e : Endpoint) (identifier : Option String) (methodology : DataHandlingMethodology)
    (data : Dict String Json) (db : Db) : Db :=
  (generateResponse b (updateOrCreateObject b e identifier methodology data) db).2

/-- The commit in the middle changes the database; and after it the row cannot be read, or the data has a list that
the endpoint cannot work with. -/
def Slips (b : Backend Db) (e : Endpoint) (identifier : Option String) (methodology : DataHandlingMethodology)
    (data : Dict String Json) (db : Db) : Prop :=
  ∃ written, Stores b e identifier methodology data db written ∧ written.1 ≠ db ∧
    (Fails (b.refresh written.1 written.2) ∨ ∃ item ∈ data.items, Raises b e item.1 item.2)

/-- Without the trigger there is no other commit. -/
theorem after_eq {answer : Answer} {s : Session Db}
    (h : call (updateOrCreateObject b e identifier methodology data) (Session.start db) = (.ok answer, s))
    (htrigger : s.commitTrigger = false) : after b e identifier methodology data db = s.committed := by
  simp [after, generateResponse, h, htrigger]

/-- What a request makes of what was raised within it. -/
theorem call_of_raised {err : Error} {s : Session Db}
    (h : call (updating b e identifier methodology data) (Session.start db) = (.error (.raised err), s)) :
    call (updateOrCreateObject b e identifier methodology data) (Session.start db) =
      (.ok (.failed err), { s with commitTrigger := false }) := by
  rw [updateOrCreateObject, call_handling, h]
  rfl

theorem call_of_answered {answer : Answer} {s : Session Db}
    (h : call (updating b e identifier methodology data) (Session.start db) = (.error (.answered answer), s)) :
    call (updateOrCreateObject b e identifier methodology data) (Session.start db) = (.ok answer, s) := by
  rw [updateOrCreateObject, call_handling, h]
  rfl

/-- What ends before the commit is rolled back. -/
theorem after_of_error {exit : Exit} (h : stored b e identifier methodology data db = .error exit) :
    after b e identifier methodology data db = db := by
  obtain ⟨s, hcall, hcommitted, htrigger⟩ := call_updating_of_error h
  cases exit with
  | raised err =>
    rw [after_eq (call_of_raised hcall) rfl]
    exact hcommitted
  | answered answer =>
    rw [after_eq (call_of_answered hcall) htrigger]
    exact hcommitted

/-- What raises after the commit is answered as failed, and keeps what was stored. -/
theorem after_of_failsLater {db' : Db} {row : Except Error DbEntry}
    (h : stored b e identifier methodology data db = .ok (db', row)) (hfails : FailsLater b e data row) :
    Rejected b e identifier methodology data db ∧ after b e identifier methodology data db = db' := by
  obtain ⟨hcommitted, hraises, -⟩ := call_updating_of_ok h
  obtain ⟨err, herr⟩ := hraises hfails
  cases hcall : call (updating b e identifier methodology data) (Session.start db) with
  | mk result s =>
    rw [hcall] at hcommitted herr
    dsimp only at hcommitted herr
    subst herr
    have hrun := call_of_raised hcall
    constructor
    · exact ⟨.failed err, by rw [hrun], Nat.le_refl 400⟩
    · rw [after_eq hrun rfl]
      exact hcommitted

/-- What goes through is not rejected. -/
theorem not_rejected {w : Db × Except Error DbEntry} (h : stored b e identifier methodology data db = .ok w)
    (hfails : ¬FailsLater b e data w.2) : ¬Rejected b e identifier methodology data db := by
  obtain ⟨-, -, hreturns⟩ := call_updating_of_ok h
  obtain ⟨answer, hanswer, hstatus⟩ := hreturns hfails
  rintro ⟨rejection, hrejection, h400⟩
  cases hcall : call (updating b e identifier methodology data) (Session.start db) with
  | mk result s =>
    rw [hcall] at hanswer
    dsimp only at hanswer
    subst hanswer
    rw [updateOrCreateObject, call_handling, hcall, recover_ok] at hrejection
    obtain rfl := Except.ok.inj hrejection
    omega

/-- A rejected request changes nothing, but where the commit in its middle does and what is done later raises. -/
theorem rejected_unchanged_iff (b : Backend Db) (e : Endpoint) (identifier : Option String)
    (methodology : DataHandlingMethodology) (data : Dict String Json) (db : Db) :
    (Rejected b e identifier methodology data db → after b e identifier methodology data db = db) ↔
      ¬Slips b e identifier methodology data db := by
  cases hstored : stored b e identifier methodology data db with
  | error exit =>
    constructor
    · rintro - ⟨written, hstores, -⟩
      rw [stored_eq_ok_iff.mpr ⟨written, hstores, rfl⟩] at hstored
      cases hstored
    · intro _ _
      exact after_of_error hstored
  | ok w =>
    obtain ⟨written, hstores, rfl⟩ := stored_eq_ok_iff.mp hstored
    -- It is what any other reading of the request comes to.
    have hsame : ∀ written', Stores b e identifier methodology data db written' →
        (written'.1, b.refresh written'.1 written'.2) = (written.1, b.refresh written.1 written.2) := by
      intro written' hstores'
      rw [stored_eq_ok_iff.mpr ⟨written', hstores', rfl⟩] at hstored
      exact Except.ok.inj hstored
    by_cases hfails : FailsLater b e data (b.refresh written.1 written.2)
    · obtain ⟨hrejected, hafter⟩ := after_of_failsLater hstored hfails
      rw [hafter]
      constructor
      · rintro h ⟨written', hstores', hne, -⟩
        rw [(Prod.mk.inj (hsame written' hstores')).1] at hne
        exact hne (h hrejected)
      · intro h _
        by_contra hne
        exact h ⟨written, hstores, hne, hfails⟩
    · have hnot := not_rejected hstored hfails
      constructor
      · rintro - ⟨written', hstores', -, hfails'⟩
        rw [(Prod.mk.inj (hsame written' hstores')).2] at hfails'
        exact hfails hfails'
      · intro _ hrejected
        exact absurd hrejected hnot

end

end

/-! A walker is renamed, with a number for its list of areas. -/

/-- The row of a walker, by its id and name. -/
def walkerRow (walker : Int × String) : DbEntry :=
  (((DbEntry.new .walker).setattr "walker_id" (.int walker.1)).setattr "instance_id" (.int 1)).setattr
    "name" (.str walker.2)

/-- A database of walkers that have no areas. -/
def walkersBackend : Backend (Dict Int String) where
  printing := ⟨fun _ => true, fun c => [c]⟩
  float q := (toString q).toList
  int := String.toInt?
  instanceId := 1
  fetch db e identifier :=
    match e with
    | .walker => .ok ((db.items.find? fun walker => toString walker.1 = identifier).map walkerRow)
    | _ => .ok none
  fetch_endpoint := by
    intro db e identifier entry h
    cases e with
    | walker =>
      obtain ⟨walker, -, rfl⟩ := Option.map_eq_some_iff.mp (Except.ok.inj h)
      rfl
    | _ => cases h
  addRoutecalc _ := .error (.database "refused")
  flush db tracked mappings :=
    match tracked, mappings with
    | none, [] => .ok (db, none)
    | some entry, [] =>
      match entry.getattr "walker_id", entry.getattr "name" with
      | .int id, .str name => .ok (db.insert id name, some entry)
      | _, _ => .error (.database "refused")
    -- There is no area that a new row could be about.
    | _, _ :: _ => .error (.database "refused")
  refresh _ tracked :=
    match tracked with
    | some entry => .ok entry
    | none => .error (.database "not found")
  deleteMonIds db _ := db
  deleteWalkerareas db _ := db
  walkerareasOf _ := .ok fun _ => []
  related _ _ _ := .ok true
  relate _ _ _ := .error .attributeError

def southWalker : Dict Int String := ⟨[(1, "south")], by decide⟩

def renamed : Dict String Json := ⟨[("name", .str "north"), ("setup", .int 5)], by decide⟩

/-- The request is answered with status 400, and the walker has its new name. -/
theorem rejected_renames :
    ¬(Rejected walkersBackend .walker (some "1") .update renamed southWalker →
      after walkersBackend .walker (some "1") .update renamed southWalker = southWalker) := by
  intro h
  have hrejected : Rejected walkersBackend .walker (some "1") .update renamed southWalker :=
    ⟨.failed .typeError, rfl, by decide⟩
  have hnorth : (after walkersBackend .walker (some "1") .update renamed southWalker).get? 1 = some "north" := by
    decide +kernel
  rw [h hrejected] at hnorth
  revert hnorth
  decide

end MapADroid.Madmin
