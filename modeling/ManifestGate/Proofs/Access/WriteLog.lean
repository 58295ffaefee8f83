import ManifestGate.Proofs.Access.History

/-!
# Answers from the log

A store can be read off the log of the writes that it took. A key, a group, a handler or a grant is
the last one written under the key that is asked for, and of the permission records of an object
those stand that no later one of the same owner and group replaces. Writes that are refused leave no
trace, and writes under other keys make no difference.
-/

namespace ManifestGate

/-! ## Slashes at the ends of paths -/

/-- `inner` is what is left of the path between the slashes at its ends. -/
structure TrimsTo (path inner : String) : Prop where
  between : ∃ before after : Nat,
    path.toList = List.replicate before '/' ++ (inner.toList ++ List.replicate after '/')
  starts : inner.toList.head? ≠ some '/'
  ends : inner.toList.getLast? ≠ some '/'

/-- The text without the slashes that it starts with. -/
def dropSlashes (text : List Char) : List Char :=
  text.dropWhile (· = '/')

theorem dropSlashes_split (text : List Char) :
    ∃ count, text = List.replicate count '/' ++ dropSlashes text := by
  induction text with
  | nil => exact ⟨0, rfl⟩
  | cons c rest ih =>
    by_cases slash : c = '/'
    · obtain ⟨count, split⟩ := ih
      refine ⟨count + 1, ?_⟩
      rw [dropSlashes, List.dropWhile_cons_of_pos (by simpa using slash), List.replicate_succ,
        List.cons_append, ← dropSlashes, ← split, slash]
    · refine ⟨0, ?_⟩
      rw [dropSlashes, List.dropWhile_cons_of_neg (by simpa using slash)]
      rfl

theorem head?_dropSlashes (text : List Char) : (dropSlashes text).head? ≠ some '/' := by
  intro slash
  have stops := List.head?_dropWhile_not (fun c => decide (c = '/')) text
  rw [← dropSlashes, slash] at stops
  simp at stops

theorem dropSlashes_eq_self {text : List Char} (starts : text.head? ≠ some '/') :
    dropSlashes text = text := by
  cases text with
  | nil => rfl
  | cons c rest =>
    have different : c ≠ '/' := fun same => starts (congrArg some same)
    exact List.dropWhile_cons_of_neg (by simpa using different)

theorem dropSlashes_replicate_append (count : Nat) (text : List Char) :
    dropSlashes (List.replicate count '/' ++ text) = dropSlashes text := by
  apply List.dropWhile_append_of_pos
  intro c member
  simpa using List.eq_of_mem_replicate member

theorem toList_normalizePath (path : String) :
    (normalizePath path).toList = (dropSlashes (dropSlashes path.toList).reverse).reverse := by
  rw [normalizePath, String.toList_ofList]
  rfl

theorem trimsTo_normalizePath (path : String) : TrimsTo path (normalizePath path) := by
  obtain ⟨before, first⟩ := dropSlashes_split path.toList
  obtain ⟨after, second⟩ := dropSlashes_split (dropSlashes path.toList).reverse
  have inner : dropSlashes path.toList =
      (normalizePath path).toList ++ List.replicate after '/' := by
    rw [toList_normalizePath, ← List.reverse_inj, List.reverse_append, List.reverse_reverse,
      List.reverse_replicate]
    exact second
  refine ⟨⟨before, after, ?_⟩, ?_, ?_⟩
  · rw [← inner]
    exact first
  · have starts := head?_dropSlashes path.toList
    rw [inner] at starts
    cases present : (normalizePath path).toList with
    | nil => simp
    | cons c rest =>
      rw [present] at starts
      exact starts
  · rw [toList_normalizePath, List.getLast?_reverse]
    exact head?_dropSlashes _

/-- Nothing but the slashes at the ends is lost. -/
theorem trimsTo_iff {path inner : String} : TrimsTo path inner ↔ inner = normalizePath path := by
  constructor
  · rintro ⟨⟨before, after, split⟩, starts, ends⟩
    rw [← String.toList_inj, toList_normalizePath, split, dropSlashes_replicate_append]
    have last : inner.toList.reverse.head? ≠ some '/' := by
      rwa [List.head?_reverse]
    cases present : inner.toList with
    | nil =>
      have all := dropSlashes_replicate_append after []
      rw [List.append_nil] at all
      rw [List.nil_append, all]
      rfl
    | cons c rest =>
      have same : dropSlashes (c :: rest ++ List.replicate after '/') =
          c :: rest ++ List.replicate after '/' := by
        apply dropSlashes_eq_self
        rwa [present] at starts
      rw [present] at last
      rw [same, List.reverse_append, List.reverse_replicate, dropSlashes_replicate_append,
        dropSlashes_eq_self last, List.reverse_reverse]
  · rintro rfl
    exact trimsTo_normalizePath path

theorem normalizePath_normalizePath (path : String) :
    normalizePath (normalizePath path) = normalizePath path := by
  have trimmed := trimsTo_normalizePath path
  symm
  apply trimsTo_iff.mp
  exact ⟨⟨0, 0, by simp⟩, trimmed.starts, trimmed.ends⟩

/-! ## The log -/

namespace Store

/-- The writes that are taken, from a store on. -/
def takenFrom (store : Store) : List Write → List Write
  | [] => []
  | write :: rest =>
    match store.write write with
    | .ok next => write :: takenFrom next rest
    | .error _ => takenFrom store rest

/-- The writes of a history that succeed, in their order. -/
def taken (history : List Write) : List Write :=
  takenFrom empty history

theorem takenFrom_induction {holds : List Write → Store → Prop}
    (step : ∀ log store write next, holds log store → store.write write = .ok next →
      holds (log ++ [write]) next)
    (history : List Write) {log : List Write} {store : Store} (start : holds log store) :
    holds (log ++ takenFrom store history) (history.foldl after store) := by
  induction history generalizing log store with
  | nil => rwa [takenFrom, List.append_nil]
  | cons write rest ih =>
    rw [takenFrom, List.foldl_cons]
    cases written : store.write write with
    | error cause =>
      rw [after_of_error written]
      exact ih start
    | ok next =>
      rw [after_of_ok written]
      have kept := ih (step log store write next start written)
      rwa [List.append_assoc] at kept

/-- What holds of the empty log and store, and is kept by each write that succeeds, holds of the log
of a history and the store that it reaches. -/
theorem taken_induction {motive : List Write → Store → Prop} (start : motive [] empty)
    (step : ∀ log store write next, motive log store → store.write write = .ok next →
      motive (log ++ [write]) next)
    (history : List Write) : motive (taken history) (reached history) :=
  takenFrom_induction step history start

end Store

/-- The handler as it is kept: the slashes at the ends of its path are gone, and of a manifest given
as text the document is kept. -/
structure Handler.KeptAs (given kept : Handler) : Prop where
  rest : kept = { given with path := normalizePath given.path, manifest := kept.manifest }
  manifest :
    match given.manifest with
    | .string text => Json.parse text = .ok kept.manifest
    | document => kept.manifest = document

/-- The records that no later one of the same owner and group replaces. -/
def standing : List PermissionRecord → List PermissionRecord
  | [] => []
  | record :: later =>
    if ∃ other ∈ later, other.owner = record.owner ∧ other.group = record.group then standing later
    else record :: standing later

namespace Store.Write

/-- The ACL key that is written under an id. -/
def aclKey? (id : String) : Write → Option AclKey
  | .aclKey given => if given.id = id then some given else none
  | _ => none

def group? (id : String) : Write → Option Group
  | .group given => if given.id = id then some given else none
  | _ => none

/-- The handler that is written, as it was given, for a method and a path up to slashes at its
ends. -/
def handler? (path : String) (method : Method) : Write → Option Handler
  | .handler given =>
    if normalizePath given.path = normalizePath path ∧ given.method = method then some given
    else none
  | _ => none

def grant? (objectType objectId forGroup : String) : Write → Option ObjectGrant
  | .grant given =>
    if given.objectType = objectType ∧ given.objectId = objectId ∧ given.group = forGroup then
      some given
    else none
  | _ => none

/-- The permission record that is written for an object. -/
def record? (objectUuid : String) : Write → Option PermissionRecord
  | .permission given => if given.objectUuid = objectUuid then some given else none
  | _ => none

end Store.Write

namespace Store

/-! ## What a write does to a look-up -/

theorem keptAs_of_prepare {given kept : Handler} (prepared : prepare given = .ok kept) :
    given.KeptAs kept := by
  unfold prepare at prepared
  split at prepared
  · next text isText =>
    split at prepared
    · next document parsed =>
      cases prepared
      refine ⟨rfl, ?_⟩
      rw [isText]
      exact parsed
    · cases prepared
  · next notText =>
    cases prepared
    refine ⟨rfl, ?_⟩
    split
    · next text isText => exact absurd isText (notText text)
    · rfl

/-- All that a write that succeeds can do. -/
theorem write_ok {store next : Store} {write : Write} (written : store.write write = .ok next) :
    (∃ key, write = .aclKey key ∧ next = store.insertAclKey key) ∨
      (∃ group, write = .group group ∧
        next = { store with groups := store.groups.put group.id group }) ∨
      (∃ given kept, write = .handler given ∧ given.KeptAs kept ∧
        next = { store with handlers := store.handlers.put (kept.path, kept.method) kept }) ∨
      (∃ grant, write = .grant grant ∧ next = store.grantObject grant) ∨
      ∃ record, write = .permission record ∧ next = store.setPermission record := by
  cases write with
  | aclKey key => exact .inl ⟨key, rfl, (Except.ok.inj written).symm⟩
  | group group => exact .inr (.inl ⟨group, rfl, (insertGroup_ok written).1⟩)
  | handler given =>
    obtain ⟨kept, prepared, changed, _⟩ := insertHandler_ok written
    exact .inr (.inr (.inl ⟨given, kept, rfl, keptAs_of_prepare prepared, changed⟩))
  | grant grant => exact .inr (.inr (.inr (.inl ⟨grant, rfl, (Except.ok.inj written).symm⟩)))
  | permission record =>
    exact .inr (.inr (.inr (.inr ⟨record, rfl, (Except.ok.inj written).symm⟩)))

section

variable {α β : Type}

/-- A write that succeeds sets what is looked up if it writes something of that key, and else leaves
it. What is kept of what was given is told by a relation. -/
def Tracks (related : α → β → Prop) (lookup : Store → Option β) (select : Write → Option α) :
    Prop :=
  ∀ store write next, store.write write = .ok next →
    (select write = none ∧ lookup next = lookup store) ∨
      ∃ given kept, select write = some given ∧ lookup next = some kept ∧ related given kept

/-- A look-up finds the last that was written under its key. -/
theorem Tracks.last {related : α → β → Prop} {lookup : Store → Option β}
    {select : Write → Option α} (tracks : Tracks related lookup select)
    (start : lookup empty = none) (history : List Write) :
    Option.Rel related ((taken history).filterMap select).getLast? (lookup (reached history)) := by
  refine taken_induction (motive := fun log store =>
    Option.Rel related (log.filterMap select).getLast? (lookup store)) ?_ ?_ history
  · rw [start]
    exact .none
  · intro log store write next answered written
    rw [List.filterMap_append, List.filterMap_cons, List.filterMap_nil]
    rcases tracks store write next written with
      ⟨other, unchanged⟩ | ⟨given, kept, selected, found, same⟩
    · rw [other, List.append_nil, unchanged]
      exact answered
    · rw [selected, List.getLast?_concat, found]
      exact .some same

theorem Tracks.last_eq {lookup : Store → Option α} {select : Write → Option α}
    (tracks : Tracks Eq lookup select) (start : lookup empty = none) (history : List Write) :
    lookup (reached history) = ((taken history).filterMap select).getLast? := by
  have found := tracks.last start history
  generalize ((taken history).filterMap select).getLast? = last at found ⊢
  generalize lookup (reached history) = answer at found ⊢
  cases found with
  | none => rfl
  | some same => rw [same]

/-- The look-up of a table, which some of the writes put a row into. -/
theorem Tracks.of_put {κ : Type} [DecidableEq κ] {related : α → β → Prop}
    {table : Store → Table κ β} {key : κ} {select : Write → Option α}
    (puts : ∀ store write next, store.write write = .ok next →
      (select write = none ∧ table next = table store) ∨
        ∃ place given kept, select write = (if place = key then some given else none) ∧
          table next = (table store).put place kept ∧ related given kept) :
    Tracks related (fun store => (table store).get? key) select := by
  intro store write next written
  dsimp only
  rcases puts store write next written with
    ⟨other, unchanged⟩ | ⟨place, given, kept, selected, changed, same⟩
  · exact .inl ⟨other, by rw [unchanged]⟩
  · rw [changed, selected]
    by_cases here : place = key
    · subst here
      exact .inr ⟨given, kept, if_pos rfl, Table.get?_put_self _ _ _, same⟩
    · exact .inl ⟨if_neg here, Table.get?_put_of_ne _ _ here⟩

end

theorem tracks_aclKey (id : String) :
    Tracks Eq (fun store => store.aclKeys.get? id) (Write.aclKey? id) := by
  apply Tracks.of_put
  intro store write next written
  rcases write_ok written with ⟨key, rfl, rfl⟩ | ⟨_, rfl, rfl⟩ | ⟨_, _, rfl, _, rfl⟩ |
    ⟨_, rfl, rfl⟩ | ⟨_, rfl, rfl⟩
  · exact .inr ⟨key.id, key, key, rfl, rfl, rfl⟩
  all_goals exact .inl ⟨rfl, rfl⟩

theorem tracks_group (id : String) :
    Tracks Eq (fun store => store.groups.get? id) (Write.group? id) := by
  apply Tracks.of_put
  intro store write next written
  rcases write_ok written with ⟨_, rfl, rfl⟩ | ⟨group, rfl, rfl⟩ | ⟨_, _, rfl, _, rfl⟩ |
    ⟨_, rfl, rfl⟩ | ⟨_, rfl, rfl⟩
  case inr.inl => exact .inr ⟨group.id, group, group, rfl, rfl, rfl⟩
  all_goals exact .inl ⟨rfl, rfl⟩

theorem tracks_handler (path : String) (method : Method) :
    Tracks Handler.KeptAs (fun store => store.handlers.get? (normalizePath path, method))
      (Write.handler? path method) := by
  apply Tracks.of_put
  intro store write next written
  rcases write_ok written with ⟨_, rfl, rfl⟩ | ⟨_, rfl, rfl⟩ | ⟨given, kept, rfl, keptAs, rfl⟩ |
    ⟨_, rfl, rfl⟩ | ⟨_, rfl, rfl⟩
  case inr.inr.inl =>
    refine .inr ⟨(kept.path, kept.method), given, kept, ?_, rfl, keptAs⟩
    rw [keptAs.rest]
    simp only [Write.handler?, Prod.mk.injEq]
  all_goals exact .inl ⟨rfl, rfl⟩

theorem tracks_grant (objectType objectId group : String) :
    Tracks Eq (fun store => store.objectGrants.get? (objectType, objectId, group))
      (Write.grant? objectType objectId group) := by
  apply Tracks.of_put
  intro store write next written
  rcases write_ok written with ⟨_, rfl, rfl⟩ | ⟨_, rfl, rfl⟩ | ⟨_, _, rfl, _, rfl⟩ |
    ⟨grant, rfl, rfl⟩ | ⟨_, rfl, rfl⟩
  case inr.inr.inr.inl =>
    refine .inr ⟨(grant.objectType, grant.objectId, grant.group), grant, grant, ?_, rfl, rfl⟩
    simp only [Write.grant?, Prod.mk.injEq]
  all_goals exact .inl ⟨rfl, rfl⟩

/-! ## Permission records -/

/-- A written record takes the place of the one of its owner and group, and stands last. -/
theorem permissionRecords_write {store next : Store} {write : Write}
    (written : store.write write = .ok next) (objectUuid : String) :
    next.directory.permissionRecords objectUuid =
      match write.record? objectUuid with
      | none => store.directory.permissionRecords objectUuid
      | some record => (store.directory.permissionRecords objectUuid).filter (fun other =>
          !(other.owner = record.owner && other.group = record.group)) ++ [record] := by
  rcases write_ok written with ⟨_, rfl, rfl⟩ | ⟨_, rfl, rfl⟩ | ⟨_, _, rfl, _, rfl⟩ |
    ⟨_, rfl, rfl⟩ | ⟨record, rfl, rfl⟩
  case inr.inr.inr.inr =>
    by_cases same : record.objectUuid = objectUuid
    · subst same
      simp only [Write.record?, if_true, setPermission, directory, Table.get?_put_self,
        Option.getD_some]
    · simp only [Write.record?, same, if_false, setPermission, directory,
        Table.get?_put_of_ne _ _ same]
  all_goals rfl

end Store

theorem standing_concat (written : List PermissionRecord) (record : PermissionRecord) :
    standing (written ++ [record]) = (standing written).filter (fun other =>
      !(other.owner = record.owner && other.group = record.group)) ++ [record] := by
  induction written with
  | nil => simp [standing]
  | cons first later ih =>
    rw [List.cons_append, standing, standing, ih]
    by_cases replaced : ∃ other ∈ later, other.owner = first.owner ∧ other.group = first.group
    · rw [if_pos replaced, if_pos]
      obtain ⟨other, member, same⟩ := replaced
      exact ⟨other, List.mem_append_left _ member, same⟩
    · rw [if_neg replaced]
      by_cases last : record.owner = first.owner ∧ record.group = first.group
      · rw [if_pos ⟨record, by simp, last⟩, List.filter_cons_of_neg (by simp [last])]
      · rw [if_neg, List.filter_cons_of_pos, List.cons_append]
        · have apart : ¬(first.owner = record.owner ∧ first.group = record.group) :=
            fun same => last ⟨same.1.symm, same.2.symm⟩
          simpa [← not_and_or] using apart
        · rintro ⟨other, member, same⟩
          rcases List.mem_append.mp member with inside | isLast
          · exact replaced ⟨other, inside, same⟩
          · rw [List.mem_singleton.mp isLast] at same
            exact last same

theorem mem_of_mem_standing {written : List PermissionRecord} {record : PermissionRecord}
    (member : record ∈ standing written) : record ∈ written := by
  induction written with
  | nil => exact member
  | cons first later ih =>
    unfold standing at member
    split at member
    · exact List.mem_cons_of_mem _ (ih member)
    · cases member with
      | head => exact List.mem_cons_self
      | tail _ inside => exact List.mem_cons_of_mem _ (ih inside)

/-- No two records of one owner and group stand. -/
theorem standing_pairwise (written : List PermissionRecord) :
    (standing written).Pairwise fun a b => ¬(a.owner = b.owner ∧ a.group = b.group) := by
  induction written with
  | nil => exact .nil
  | cons first later ih =>
    unfold standing
    split
    · exact ih
    · next alone =>
      refine .cons ?_ ih
      intro other member same
      exact alone ⟨other, mem_of_mem_standing member, same.1.symm, same.2.symm⟩

/-- For each owner and group that were written a record stands. -/
theorem exists_mem_standing {written : List PermissionRecord} {record : PermissionRecord}
    (member : record ∈ written) :
    ∃ kept ∈ standing written, kept.owner = record.owner ∧ kept.group = record.group := by
  induction written generalizing record with
  | nil => cases member
  | cons first later ih =>
    have inLater : record ∈ later → ∃ kept ∈ standing (first :: later),
        kept.owner = record.owner ∧ kept.group = record.group := by
      intro inside
      obtain ⟨kept, stands, same⟩ := ih inside
      refine ⟨kept, ?_, same⟩
      unfold standing
      split
      · exact stands
      · exact List.mem_cons_of_mem _ stands
    rcases List.mem_cons.mp member with rfl | inside
    · by_cases replaced : ∃ other ∈ later, other.owner = record.owner ∧ other.group = record.group
      · obtain ⟨other, inside, owner, group⟩ := replaced
        obtain ⟨kept, stands, sameOwner, sameGroup⟩ := ih inside
        refine ⟨kept, ?_, sameOwner.trans owner, sameGroup.trans group⟩
        rw [standing, if_pos ⟨other, inside, owner, group⟩]
        exact stands
      · refine ⟨record, ?_, rfl, rfl⟩
        rw [standing, if_neg replaced]
        exact List.mem_cons_self
    · exact inLater inside

namespace Store

theorem permissionRecords_reached (history : List Write) (objectUuid : String) :
    (reached history).directory.permissionRecords objectUuid =
      standing ((taken history).filterMap (Write.record? objectUuid)) := by
  refine taken_induction (motive := fun log store =>
    store.directory.permissionRecords objectUuid =
      standing (log.filterMap (Write.record? objectUuid))) rfl ?_ history
  intro log store write next answered written
  rw [permissionRecords_write written, answered, List.filterMap_append, List.filterMap_cons,
    List.filterMap_nil]
  cases write.record? objectUuid with
  | none => rw [List.append_nil]
  | some record => exact (standing_concat _ record).symm

end Store

/-! ## Writes under other keys -/

/-- What can be asked of a directory. -/
inductive Query where
  | aclKey (id : String)
  | group (id : String)
  | handler (path : String) (method : Method)
  | grant (objectType objectId group : String)
  | permissions (objectUuid : String)

namespace Query

/-- The key that a query asks for; paths count up to slashes at their ends. -/
def key : Query → Query
  | .handler path method => .handler (normalizePath path) method
  | query => query

/-- Two directories give one answer. -/
def Alike (first second : Directory) : Query → Prop
  | .aclKey id => first.aclKey? id = second.aclKey? id
  | .group id => first.group? id = second.group? id
  | .handler path method => first.handler? path method = second.handler? path method
  | .grant objectType objectId forGroup =>
    first.objectGrant? objectType objectId forGroup =
      second.objectGrant? objectType objectId forGroup
  | .permissions objectUuid =>
    first.permissionRecords objectUuid = second.permissionRecords objectUuid

theorem Alike.refl (directory : Directory) (query : Query) : query.Alike directory directory := by
  cases query <;> exact rfl

end Query

namespace Store

/-- The key that is written. -/
def Write.key : Write → Query
  | .aclKey given => .aclKey given.id
  | .group given => .group given.id
  | .handler given => .handler (normalizePath given.path) given.method
  | .grant given => .grant given.objectType given.objectId given.group
  | .permission given => .permissions given.objectUuid

theorem Tracks.unchanged {α β : Type} {related : α → β → Prop} {lookup : Store → Option β}
    {select : Write → Option α} (tracks : Tracks related lookup select) {store next : Store}
    {write : Write} (written : store.write write = .ok next) (other : select write = none) :
    lookup next = lookup store := by
  rcases tracks store write next written with ⟨_, unchanged⟩ | ⟨given, _, selected, _⟩
  · exact unchanged
  · rw [other] at selected
    cases selected

/-- A write changes no answer but the one under its own key. -/
theorem alike_after (store : Store) (write : Write) {query : Query}
    (other : write.key ≠ query.key) :
    query.Alike (store.after write).directory store.directory := by
  cases written : store.write write with
  | error cause =>
    rw [after_of_error written]
    exact .refl _ query
  | ok next =>
    rw [after_of_ok written]
    cases query with
    | aclKey id =>
      apply (tracks_aclKey id).unchanged written
      cases write with
      | aclKey given => exact if_neg fun same => other (congrArg Query.aclKey same)
      | _ => rfl
    | group id =>
      apply (tracks_group id).unchanged written
      cases write with
      | group given => exact if_neg fun same => other (congrArg Query.group same)
      | _ => rfl
    | handler path method =>
      apply (tracks_handler path method).unchanged written
      cases write with
      | handler given =>
        exact if_neg fun ⟨samePath, sameMethod⟩ =>
          other (congrArg₂ Query.handler samePath sameMethod)
      | _ => rfl
    | grant objectType objectId group =>
      apply (tracks_grant objectType objectId group).unchanged written
      cases write with
      | grant given =>
        refine if_neg ?_
        rintro ⟨rfl, rfl, rfl⟩
        exact other rfl
      | _ => rfl
    | permissions objectUuid =>
      have kept : write.record? objectUuid = none := by
        cases write with
        | permission given => exact if_neg fun same => other (congrArg Query.permissions same)
        | _ => rfl
      have records := permissionRecords_write written objectUuid
      rw [kept] at records
      exact records

end Store

/-- A store is the log of the writes that it took. Keys, groups, handlers and grants are the last
written under their keys; permission records stand in the order in which they were last written, one
for each owner and group that ever were. A write that fails changes no answer, and one that succeeds
changes none under other keys. For handlers the key is the method and the path between the slashes
at its ends, which trimming finds and leaves alone. -/
theorem store_refines_log (history : List Store.Write) :
    let directory := (Store.reached history).directory
    let log := Store.taken history
    (∀ id, directory.aclKey? id = (log.filterMap (Store.Write.aclKey? id)).getLast?) ∧
    (∀ id, directory.group? id = (log.filterMap (Store.Write.group? id)).getLast?) ∧
    (∀ objectType objectId group, directory.objectGrant? objectType objectId group =
      (log.filterMap (Store.Write.grant? objectType objectId group)).getLast?) ∧
    (∀ path method, Option.Rel Handler.KeptAs
      (log.filterMap (Store.Write.handler? path method)).getLast?
      (directory.handler? path method)) ∧
    (∀ objectUuid,
      let written := log.filterMap (Store.Write.record? objectUuid)
      let records := directory.permissionRecords objectUuid
      records = standing written ∧
      (∀ record ∈ written,
        ∃ kept ∈ records, kept.owner = record.owner ∧ kept.group = record.group) ∧
      records.Pairwise fun a b => ¬(a.owner = b.owner ∧ a.group = b.group)) ∧
    (∀ (write : Store.Write) (query : Query),
      (∃ cause, (Store.reached history).write write = .error cause) ∨ write.key ≠ query.key →
        query.Alike (Store.reached (history ++ [write])).directory directory) ∧
    ∀ path, (∀ inner, TrimsTo path inner ↔ inner = normalizePath path) ∧
      normalizePath (normalizePath path) = normalizePath path := by
  intro directory log
  refine ⟨?_, ?_, ?_, ?_, ?_, ?_, ?_⟩
  · intro id
    exact (Store.tracks_aclKey id).last_eq rfl history
  · intro id
    exact (Store.tracks_group id).last_eq rfl history
  · intro objectType objectId group
    exact (Store.tracks_grant objectType objectId group).last_eq rfl history
  · intro path method
    exact (Store.tracks_handler path method).last rfl history
  · intro objectUuid written records
    have same : records = standing written := Store.permissionRecords_reached history objectUuid
    rw [same]
    exact ⟨rfl, fun _ member => exists_mem_standing member, standing_pairwise written⟩
  · intro write query reason
    rw [Store.reached_append_singleton]
    rcases reason with ⟨cause, refused⟩ | other
    · rw [Store.after_of_error refused]
      exact .refl _ query
    · exact Store.alike_after _ write other
  · intro path
    exact ⟨fun _ => trimsTo_iff, normalizePath_normalizePath path⟩

end ManifestGate
