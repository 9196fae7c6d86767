import SemanticMemory.Marker
import SemanticMemory.Membership
import SemanticMemory.Neighborhood

/-!
# Requests to a store

Everything that can be asked of a store, as data.  A request knows the type of its answer, so two
stores can be sent the same requests and their answers compared one by one.
-/

namespace SemanticMemory

/-- A call to a store, or to a helper that works on one. -/
inductive Request where
  | isElement (address : Address)
  | elementType (address : Address)
  | endpoints (address : Address)
  | matching (pattern : Pattern)
  | hasEdge (source target : Address) (type : ElementType)
  | identifier (address : Address)
  | owner (identifier : String)
  | createNode (type : ElementType)
  | createLink
  | createEdge (type : ElementType) (source target : Address)
  | erase (address : Address)
  | assignIdentifier (address : Address) (identifier : String)
  | addMember (set element : Address)
  | removeMember (set element : Address)
  | resolveCatalog (names : CatalogNames)
  | resolveOrderRole (catalog : Catalog) (edge : Address)
  | resolveOperatorType (catalog : Catalog) (operator : Address)
  | elementText (address : Address)
  | writeNeighborhood (address : Address) (sink : Sink)

namespace Request

def Value : Request → Type
  | isElement _ => Bool
  | elementType _ => ElementType
  | endpoints _ => Address × Address
  | matching _ => List Triple
  | hasEdge _ _ _ => Bool
  | identifier _ => Option String
  | owner _ => Option Address
  | createNode _ => Address
  | createLink => Address
  | createEdge _ _ _ => Address
  | erase _ => Bool
  | assignIdentifier _ _ => Unit
  | addMember _ _ => Bool
  | removeMember _ _ => Bool
  | resolveCatalog _ => Catalog
  | resolveOrderRole _ _ => Option Address
  | resolveOperatorType _ _ => Option Address
  | elementText _ => String
  | writeNeighborhood _ _ => Except Failure NeighborhoodSummary × Sink

def action {σ : Type} [TripleStore σ] : (request : Request) → Action σ Failure request.Value
  | isElement address => .view fun store => TripleStore.isElement store address
  | elementType address => TripleStore.ask fun store => TripleStore.elementType store address
  | endpoints address => TripleStore.ask fun store => TripleStore.endpoints store address
  | matching pattern => TripleStore.ask fun store => TripleStore.matching store pattern
  | hasEdge source target type =>
      TripleStore.ask fun store => TripleStore.hasEdge store source target type
  | identifier address => TripleStore.ask fun store => TripleStore.identifier store address
  | owner name => .view fun store => TripleStore.owner? store name
  | createNode type => TripleStore.change (TripleStore.createNode type)
  | createLink => TripleStore.change TripleStore.createLink
  | createEdge type source target => TripleStore.change (TripleStore.createEdge type source target)
  | erase address => TripleStore.change (TripleStore.erase address)
  | assignIdentifier address name =>
      TripleStore.change (TripleStore.assignIdentifier address name)
  | addMember set element => Membership.add set element
  | removeMember set element => Membership.remove set element
  | resolveCatalog names => Catalog.resolve names
  | resolveOrderRole catalog edge => Marker.resolveOrderRole catalog edge
  | resolveOperatorType catalog operator => Marker.resolveOperatorType catalog operator
  | elementText address => .query fun store => Rendering.elementText store address
  | writeNeighborhood address sink =>
      .view fun store =>
        let reply := (Neighborhood.write store address).run sink
        (reply.result, reply.state)

/-- Whether the request is made of questions alone. -/
def IsQuestion : Request → Prop
  | createNode _ | createLink | createEdge _ _ _ | erase _ | assignIdentifier _ _ => False
  | addMember _ _ | removeMember _ _ => False
  | _ => True

end Request

end SemanticMemory
