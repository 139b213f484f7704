import Transact.Repository.Basic
import Transact.Schema.Sample

/-! Repositories over the sample schema. -/
namespace Transact.Repository

def users : Repository where
  className := "UserRepository"
  table := Schema.users
  mapping := .fields Schema.users.columnNames
  maker := some ⟨"User", ["username", "email"]⟩

def orders : Repository where
  className := "OrderRepository"
  table := Schema.orders
  mapping := .fields Schema.orders.columnNames
  maker := some ⟨"Order", ["user_id", "product_name", "amount"]⟩

end Transact.Repository

namespace Transact.Operation

def byEmail (email : Value) : Operation := .find "email" email

def forUser (user : Value) : Operation := .findAll "user_id" user "product_name"

end Transact.Operation
