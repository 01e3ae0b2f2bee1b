import MaintenanceFabric.Config.Text
import MaintenanceFabric.Store.Image

/-! # Topology text

    `load_topology_text` adds one record a line to an empty topology and
    validates the outcome; `render_topology` writes every record of a topology
    on a line of its own.
-/

namespace MaintenanceFabric

open Lib

/-! ## Loading -/

/-- Errors of the operations on the topology carry the line they happened on. -/
def at_line {α : Type} (line : Line) (r : Result α) : Result α :=
  match r with
  | .error e => .error (line_error e.code line.number e.detail)
  | .ok a => .ok a

@[simp] theorem at_line_eq_ok {α : Type} {line : Line} {r : Result α} {a : α} :
    at_line line r = .ok a ↔ r = .ok a := by
  cases r <;> simp [at_line]

/-- `DomainId{*kind, *index}` of two fields that are read separately. -/
def domain_identity (kind_text id_text : Text) : Option DomainId := do
  let kind ← parse_domain_kind kind_text
  if kind = .Unknown then none
  let index ← parse_u32 id_text
  some { kind, index }

def target_identity (kind_text id_text : Text) : Option TargetId := do
  let kind ← parse_target_kind kind_text
  if kind = .Unknown then none
  let index ← parse_u32 id_text
  some { kind, index }

def load_domain (t : Topology) (line : Line) : Result Topology := do
  require_known_keys line [text "kind", text "id", text "name", text "correlated"]
  let kind_text ← require_value line (text "kind")
  let id_text ← require_value line (text "id")
  let id ← expect line (text "domain kind/id is not valid") (domain_identity kind_text id_text)
  let name := (line.find (text "name")).getD id.to_string
  let correlated ← optional_value line (text "correlated") true (parse_bool line)
  at_line line (t.add_domain { id, name, correlated })

def load_parent (line : Line) (value : Text) : Result (Option TargetId) := do
  let parent ← expect line (text "parent is not a target id") (parse_target_id value)
  .ok (some parent)

def load_target (t : Topology) (line : Line) : Result Topology := do
  require_known_keys line [text "kind", text "id", text "name", text "parent", text "domains",
    text "capacity", text "maintainable"]
  let kind_text ← require_value line (text "kind")
  let id_text ← require_value line (text "id")
  let domains_text ← require_value line (text "domains")
  let id ← expect line (text "target kind/id is not valid") (target_identity kind_text id_text)
  let name := (line.find (text "name")).getD id.to_string
  let domains ← parse_domain_list line domains_text
  let parent ← optional_value line (text "parent") none (load_parent line)
  let capacity_units ← optional_value line (text "capacity") 1 (parse_u32_value line)
  let maintainable ← optional_value line (text "maintainable") true (parse_bool line)
  at_line line (t.add_target { id, name, parent, domains, capacity_units, maintainable })

def load_pool (t : Topology) (line : Line) : Result Topology := do
  require_known_keys line [text "id", text "name", text "members"]
  let id_text ← require_value line (text "id")
  let members_text ← require_value line (text "members")
  let index ← expect line (text "pool id is not valid") (parse_u32 id_text)
  let id : PoolId := ⟨index⟩
  let name := (line.find (text "name")).getD id.to_string
  let members ← parse_target_list line members_text
  at_line line (t.add_pool { id, name, members })

/-- The record of one line. -/
def load_record (t : Topology) (line : Line) : Result Topology :=
  if line.kind = text "domain" then load_domain t line
  else if line.kind = text "target" then load_target t line
  else if line.kind = text "pool" then load_pool t line
  else .error (line_error .InvalidArgument line.number
    (text "unknown record kind '" ++ line.kind ++ text "'"))

def load_counted (loaded : Topology × ParseStats) (line : Line) :
    Result (Topology × ParseStats) := do
  let t ← load_record loaded.1 line
  .ok (t, { loaded.2 with records := loaded.2.records + 1 })

def load_topology_text (t : Text) : Result (Topology × ParseStats) := do
  let lines ← tokenize t
  let loaded ← lines.foldlM load_counted ({}, { lines := lines.length })
  loaded.1.validate
  .ok loaded

/-! ## Rendering -/

def render_domain (r : DomainRecord) : Text :=
  text "domain kind=" ++ r.id.kind.to_string ++ text " id=" ++ decimal r.id.index ++
    text " name=" ++ r.name ++ text " correlated=" ++ bool_text r.correlated ++ [newline]

def render_parent : Option TargetId → Text
  | none => []
  | some parent => text " parent=" ++ parent.to_string

def render_target (r : TargetRecord) : Text :=
  text "target kind=" ++ r.id.kind.to_string ++ text " id=" ++ decimal r.id.index ++
    text " name=" ++ r.name ++ render_parent r.parent ++ text " domains=" ++
    comma_list (r.domains.map DomainId.to_string) ++ text " capacity=" ++
    decimal r.capacity_units ++ text " maintainable=" ++ bool_text r.maintainable ++ [newline]

def render_pool (r : PoolRecord) : Text :=
  text "pool id=" ++ decimal r.id.value ++ text " name=" ++ r.name ++ text " members=" ++
    comma_list (r.members.map TargetId.to_string) ++ [newline]

/-- Targets go out in containment order: by the length of their ancestor list, then by
    identity. -/
def render_topology (t : Topology) : Text :=
  t.domains.rows.flatMap render_domain ++ (recorded_order t).flatMap render_target ++
    t.pools.rows.flatMap render_pool

end MaintenanceFabric
