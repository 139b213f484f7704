import Transact.Schema.Table

/-! A sample schema: users, and the orders that they place. -/
namespace Transact.Schema

def users : Table where
  name := "users"
  columns := [
    { name := "id", kind := .uuid, primaryKey := true },
    { name := "username", kind := .text },
    { name := "email", kind := .text, unique := true }]

def orders : Table where
  name := "orders"
  columns := [
    { name := "id", kind := .uuid, primaryKey := true },
    { name := "user_id", kind := .uuid, target := some "users.id" },
    { name := "product_name", kind := .text },
    { name := "amount", kind := .integer }]

end Transact.Schema
