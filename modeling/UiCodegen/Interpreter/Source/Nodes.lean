import UiCodegen.Interpreter.Source.Template

/-!
# Interpreting nodes

The part of the C interpreter that creates entities, sets their attributes and walks over documents.
-/

namespace UiCodegen.Interpreter.Source

/-- Components, keys that are no attributes, and paths. -/
def components : List Bytes := lines r#"/* Rendering */

typedef struct component_node <%
 char *name;
 cJSON *root;
 struct component_node *next;
%> component_node_t;

static component_node_t *g_components = NULL;

static void register_component(const char *name, cJSON *root)
<%
 component_node_t *c;
 for (c = g_components; c; c = c->next) <%
  if (strcmp(c->name, name) == 0) <%
   LVGL_JSON_LOG_WARN("lvgl_json: component @%s redefined", name);
   c->root = root;
   return;
  %>
 %>
 c = (component_node_t *)malloc(sizeof(*c));
 if (!c) <%
  return;
 %>
 c->name = dup_str(name);
 c->root = root;
 c->next = g_components;
 g_components = c;
%>

static cJSON *find_component(const char *name)
<%
 component_node_t *c;
 for (c = g_components; c; c = c->next) <%
  if (strcmp(c->name, name) == 0) <%
   return c->root;
  %>
 %>
 return NULL;
%>

static const char *const g_meta_keys[] = <%"type", "id", "context", "children", "named", "with", "do", NULL%>;

static bool is_meta_key(const char *key)
<%
 int i;
 for (i = 0; g_meta_keys[i]; i++) <%
  if (strcmp(g_meta_keys[i], key) == 0) <%
   return true;
  %>
 %>
 return false;
%>

static void join_path(char *out, size_t size, const char *prefix, const char *named)
<%
 if (prefix && *prefix) <%
  snprintf(out, size, "%s:%s", prefix, named);
 %> else <%
  snprintf(out, size, "%s", named);
 %>
%>
"#

def references : List Bytes := lines r#"/* resolve_ref looks name up bare, then under the current path prefix. */
static registry_node_t *resolve_ref(const char *name, const char *path)
<%
 char key[LVGL_JSON_MAX_PATH];
 registry_node_t *n;
 for (n = g_registry; n; n = n->next) <%
  if (strcmp(n->name, name) == 0) <%
   return n;
  %>
 %>
 if (path && *path) <%
  join_path(key, sizeof(key), path, name);
  for (n = g_registry; n; n = n->next) <%
   if (strcmp(n->name, key) == 0) <%
    return n;
   %>
  %>
 %>
 return NULL;
%>

/* deref follows $variables; current_ui_context is left at the frame the
 * result must be evaluated in. The caller restores it. */
static cJSON *deref(cJSON *v)
<%
 int depth;
 for (depth = 0; depth < 32; depth++) <%
  const char *s;
  size_t n;
  ui_context_frame_t *scope = NULL;
  cJSON *next;
  if (!cJSON_IsString(v) || !v->valuestring) <%
   return v;
  %>
  s = v->valuestring;
  n = strlen(s);
  if (n < 2 || s[0] != '$' || s[n - 1] == '$') <%
   return v;
  %>
  next = context_lookup(s + 1, &scope);
  if (!next) <%
   LVGL_JSON_LOG_ERR("lvgl_json: unbound context variable '%s'", s);
   return NULL;
  %>
  current_ui_context = scope;
  v = next;
 %>
 return NULL;
%>
"#

def setters : List Bytes := lines r#"enum <% MODE_NONE, MODE_SINGLE, MODE_SPREAD, MODE_ACTION %>;

static int setter_mode(const invoke_entry_t *e, cJSON *value, bool *selector)
<%
 int m = (int)e->arity - 1;
 bool sel = (e->flags & INVOKE_SELECTOR) != 0;
 int n;
 *selector = false;
 if (!(e->flags & INVOKE_TARGET)) <%
  return MODE_NONE;
 %>
 if (!cJSON_IsArray(value)) <%
  if (m == 0) <%
   return MODE_ACTION;
  %>
  if (m == 1) <%
   return MODE_SINGLE;
  %>
  if (m == 2 && sel) <%
   *selector = true;
   return MODE_SINGLE;
  %>
  return MODE_NONE;
 %>
 if (m >= 1 && (e->flags & INVOKE_WHOLE) && (m == 1 || (m == 2 && sel))) <%
  *selector = m == 2;
  return MODE_SINGLE;
 %>
 n = cJSON_GetArraySize(value);
 if (m > 1 && n == m) <%
  return MODE_SPREAD;
 %>
 if (sel && n >= 1 && n == m - 1) <%
  *selector = true;
  return MODE_SPREAD;
 %>
 return MODE_NONE;
%>

static bool call_setter(const invoke_entry_t *e, void *target, cJSON *value, int mode, bool selector)
<%
 cJSON *args;
 bool ok;
 if (mode == MODE_ACTION) <%
  if (cJSON_IsFalse(value)) <%
   return true;
  %>
  if (!cJSON_IsTrue(value) && !cJSON_IsNull(value)) <%
   LVGL_JSON_LOG_ERR("lvgl_json: %s takes no value", e->name);
   return false;
  %>
 %>
 args = cJSON_CreateArray();
 if (!args) <%
  return false;
 %>
 if (mode == MODE_SPREAD) <%
  cJSON *item;
  cJSON_ArrayForEach(item, value) <%
   cJSON_AddItemReferenceToArray(args, item);
  %>
 %> else if (mode == MODE_SINGLE) <%
  cJSON_AddItemReferenceToArray(args, value);
 %>
 if (selector) <%
  cJSON_AddItemToArray(args, cJSON_CreateNumber(0));
 %>
 ok = e->invoke(target, NULL, args, e->fn);
 cJSON_Delete(args);
 return ok;
%>

static void apply_attribute(void *target, const char *prefix, const char *key, cJSON *raw)
<%
 char name[LVGL_JSON_MAX_NAME];
 const char *rungs[6];
 int count = 0;
 int i;
 bool found = false;
 ui_context_frame_t *saved = current_ui_context;
 cJSON *value = deref(raw);

 if (!value) <%
  current_ui_context = saved;
  return;
 %>
 if (strcmp(prefix, "lv_style") == 0) <%
  rungs[count++] = "lv_style_set_";
  rungs[count++] = "lv_style_";
 %> else <%
  if (strcmp(prefix, "lv_obj") != 0) <%
   rungs[count++] = NULL; /* widget rung */
  %>
  rungs[count++] = "lv_obj_set_";
  rungs[count++] = "lv_obj_";
  rungs[count++] = "lv_obj_add_";
  rungs[count++] = "lv_obj_set_style_";
 %>

 for (i = 0; i < count; i++) <%
  const invoke_entry_t *e;
  bool selector;
  int mode;
  if (rungs[i]) <%
   snprintf(name, sizeof(name), "%s%s", rungs[i], key);
  %> else <%
   snprintf(name, sizeof(name), "%s_set_%s", prefix, key);
  %>
  e = find_invoke_entry(name);
  if (!e) <%
   continue;
  %>
  found = true;
  mode = setter_mode(e, value, &selector);
  if (mode == MODE_NONE) <%
   continue;
  %>
  if (!call_setter(e, target, value, mode, selector)) <%
   LVGL_JSON_LOG_ERR("lvgl_json: setting '%s' with %s failed", key, e->name);
  %>
  current_ui_context = saved;
  return;
 %>
 if (found) <%
  LVGL_JSON_LOG_WARN("lvgl_json: no setter for '%s' accepts the value", key);
 %> else <%
  LVGL_JSON_LOG_WARN("lvgl_json: unknown attribute '%s'", key);
 %>
 current_ui_context = saved;
%>
"#

/-- Names, attributes and children of entities, `with` blocks and grids. -/
def entities : List Bytes := lines r#"static bool render_json_node_runtime(cJSON *node, lv_obj_t *parent, const char *path);
static void apply_setters_and_attributes_runtime(cJSON *node, void *target, const char *type, const char *path);

/* prefix_of turns a registered type such as "lv_label_t" into "lv_label". */
static void prefix_of(const char *type, char *out, size_t size)
<%
 size_t n;
 type_base(type ? type : "", out, size);
 n = strlen(out);
 if (n > 2 && strcmp(out + n - 2, "_t") == 0) <%
  out[n - 2] = '\0';
 %>
 if (strncmp(out, "lv_", 3) != 0) <%
  snprintf(out, size, "lv_obj");
 %>
%>

/* populate_entity handles id, named, context, attributes and children. */
static void populate_entity(cJSON *node, void *target, const char *type, const char *path, bool is_grid)
<%
 char child_path[LVGL_JSON_MAX_PATH];
 cJSON *id = cJSON_GetObjectItemCaseSensitive(node, "id");
 cJSON *named = cJSON_GetObjectItemCaseSensitive(node, "named");
 cJSON *ctx = cJSON_GetObjectItemCaseSensitive(node, "context");
 cJSON *children = cJSON_GetObjectItemCaseSensitive(node, "children");
 ui_context_frame_t frame;
 ui_context_frame_t *saved = current_ui_context;
 const char *saved_path;

 snprintf(child_path, sizeof(child_path), "%s", path ? path : "");
 if (cJSON_IsString(id) && id->valuestring[0]) <%
  const char *name = id->valuestring[0] == '@' ? id->valuestring + 1 : id->valuestring;
  if (*name) <%
   lvgl_json_register_ptr(name, type, target);
  %>
 %>
 if (cJSON_IsString(named) && named->valuestring[0]) <%
  join_path(child_path, sizeof(child_path), path, named->valuestring);
  lvgl_json_register_ptr(child_path, type, target);
 %>
 if (cJSON_IsObject(ctx)) <%
  frame.values = ctx;
  frame.parent = current_ui_context;
  current_ui_context = &frame;
 %>

 saved_path = current_ui_path;
 current_ui_path = child_path;
 apply_setters_and_attributes_runtime(node, target, is_grid ? "grid" : type, child_path);
 current_ui_path = saved_path;

 if (cJSON_IsArray(children)) <%
  cJSON *child;
  if (strcmp(type, "lv_style_t") == 0) <%
   LVGL_JSON_LOG_WARN("lvgl_json: styles cannot have children");
  %> else <%
   cJSON_ArrayForEach(child, children) <%
    if (!render_json_node_runtime(child, (lv_obj_t *)target, child_path)) <%
     LVGL_JSON_LOG_ERR("lvgl_json: child of '%s' failed to render", child_path);
    %>
   %>
  %>
 %>
 current_ui_context = saved;
%>

static void apply_with_block(cJSON *block, void *target, const char *type, const char *path)
<%
 cJSON *obj = cJSON_GetObjectItemCaseSensitive(block, "obj");
 cJSON *body = cJSON_GetObjectItemCaseSensitive(block, "do");
 void *t = target;
 const char *t_type = type;
 ui_context_frame_t *saved = current_ui_context;

 if (obj) <%
  cJSON *v = deref(obj);
  if (!v) <%
   current_ui_context = saved;
   return;
  %>
  if (cJSON_IsString(v) && v->valuestring[0] == '@') <%
   registry_node_t *r = resolve_ref(v->valuestring + 1, path);
   if (!r) <%
    LVGL_JSON_LOG_ERR("lvgl_json: unknown reference '%s' in with", v->valuestring);
    current_ui_context = saved;
    return;
   %>
   t = r->ptr;
   t_type = r->type;
  %> else if (cJSON_IsObject(v)) <%
   t = NULL;
   if (!unmarshal_value(v, "lv_obj_t *", &t, target) || !t) <%
    LVGL_JSON_LOG_ERR("lvgl_json: with target call failed");
    current_ui_context = saved;
    return;
   %>
   t_type = "lv_obj_t";
  %> else <%
   LVGL_JSON_LOG_ERR("lvgl_json: with target must be a reference or a call");
   current_ui_context = saved;
   return;
  %>
  current_ui_context = saved;
 %>
 if (cJSON_IsObject(body)) <%
  populate_entity(body, t, t_type, path, false);
 %>
%>

static void apply_with(cJSON *with, void *target, const char *type, const char *path)
<%
 if (cJSON_IsObject(with)) <%
  apply_with_block(with, target, type, path);
 %> else if (cJSON_IsArray(with)) <%
  cJSON *block;
  cJSON_ArrayForEach(block, with) <%
   if (cJSON_IsObject(block)) <%
    apply_with_block(block, target, type, path);
   %> else <%
    LVGL_JSON_LOG_ERR("lvgl_json: with block must be an object");
   %>
  %>
 %> else <%
  LVGL_JSON_LOG_ERR("lvgl_json: with must be an object or an array");
 %>
%>

static void apply_grid(lv_obj_t *obj, cJSON *cols, cJSON *rows)
<%
 int32_t *col_dsc = NULL;
 int32_t *row_dsc = NULL;
 ui_context_frame_t *saved = current_ui_context;
 if (cols && !unmarshal_coord_array(deref(cols), &col_dsc)) <%
  LVGL_JSON_LOG_ERR("lvgl_json: invalid grid cols");
 %>
 current_ui_context = saved;
 if (rows && !unmarshal_coord_array(deref(rows), &row_dsc)) <%
  LVGL_JSON_LOG_ERR("lvgl_json: invalid grid rows");
 %>
 current_ui_context = saved;
 lv_obj_set_grid_dsc_array(obj, col_dsc, row_dsc);
%>

static void apply_setters_and_attributes_runtime(cJSON *node, void *target, const char *type, const char *path)
<%
 char prefix[LVGL_JSON_MAX_NAME];
 bool is_grid = strcmp(type, "grid") == 0;
 cJSON *cols = NULL;
 cJSON *rows = NULL;
 cJSON *item;

 prefix_of(is_grid ? "lv_obj_t" : type, prefix, sizeof(prefix));
 cJSON_ArrayForEach(item, node) <%
  const char *key = item->string;
  if (!key) <%
   continue;
  %>
  if (strcmp(key, "with") == 0) <%
   apply_with(item, target, is_grid ? "lv_obj_t" : type, path);
   continue;
  %>
  if (is_meta_key(key)) <%
   continue;
  %>
  if (is_grid && strcmp(key, "cols") == 0) <%
   cols = item;
   continue;
  %>
  if (is_grid && strcmp(key, "rows") == 0) <%
   rows = item;
   continue;
  %>
  apply_attribute(target, prefix, key, item);
 %>
 if (cols || rows) <%
  apply_grid((lv_obj_t *)target, cols, rows);
 %>
%>
"#

def nodes : List Bytes := lines r#"static bool render_json_node_runtime(cJSON *node, lv_obj_t *parent, const char *path)
<%
 char ctor[LVGL_JSON_MAX_NAME];
 char reg_type[LVGL_JSON_MAX_NAME];
 const char *type = "obj";
 cJSON *type_item;
 const invoke_entry_t *e;
 lv_obj_t *obj = NULL;

 if (!cJSON_IsObject(node)) <%
  LVGL_JSON_LOG_ERR("lvgl_json: node must be an object");
  return false;
 %>
 type_item = cJSON_GetObjectItemCaseSensitive(node, "type");
 if (type_item) <%
  if (!cJSON_IsString(type_item)) <%
   LVGL_JSON_LOG_ERR("lvgl_json: node type must be a string");
   return false;
  %>
  type = type_item->valuestring;
 %>

 if (strcmp(type, "component") == 0) <%
  cJSON *id = cJSON_GetObjectItemCaseSensitive(node, "id");
  cJSON *root = cJSON_GetObjectItemCaseSensitive(node, "root");
  if (!cJSON_IsString(id) || id->valuestring[0] != '@' || !id->valuestring[1] || !cJSON_IsObject(root)) <%
   LVGL_JSON_LOG_ERR("lvgl_json: component needs an '@' id and a root");
   return false;
  %>
  register_component(id->valuestring + 1, root);
  return true;
 %>

 if (strcmp(type, "use-view") == 0) <%
  cJSON *id = cJSON_GetObjectItemCaseSensitive(node, "id");
  cJSON *ctx = cJSON_GetObjectItemCaseSensitive(node, "context");
  cJSON *root;
  ui_context_frame_t frame;
  ui_context_frame_t *saved = current_ui_context;
  bool ok;
  if (!cJSON_IsString(id) || id->valuestring[0] != '@') <%
   LVGL_JSON_LOG_ERR("lvgl_json: use-view needs an '@' id");
   return false;
  %>
  root = find_component(id->valuestring + 1);
  if (!root) <%
   LVGL_JSON_LOG_ERR("lvgl_json: use-view of undefined component %s", id->valuestring);
   return false;
  %>
  if (cJSON_IsObject(ctx)) <%
   frame.values = ctx;
   frame.parent = current_ui_context;
   current_ui_context = &frame;
  %>
  ok = render_json_node_runtime(root, parent, path);
  current_ui_context = saved;
  return ok;
 %>

 if (strcmp(type, "context") == 0) <%
  cJSON *values = cJSON_GetObjectItemCaseSensitive(node, "values");
  cJSON *body = cJSON_GetObjectItemCaseSensitive(node, "for");
  ui_context_frame_t frame;
  ui_context_frame_t *saved = current_ui_context;
  bool ok;
  if (!cJSON_IsObject(values) || !cJSON_IsObject(body)) <%
   LVGL_JSON_LOG_ERR("lvgl_json: context needs \"values\" and \"for\" objects");
   return false;
  %>
  frame.values = values;
  frame.parent = current_ui_context;
  current_ui_context = &frame;
  ok = render_json_node_runtime(body, parent, path);
  current_ui_context = saved;
  return ok;
 %>

 if (strcmp(type, "style") == 0) <%
  lv_style_t *style = (lv_style_t *)own_alloc(sizeof(lv_style_t));
  if (!style) <%
   return false;
  %>
  lv_style_init(style);
  populate_entity(node, style, "lv_style_t", path, false);
  return true;
 %>

 if (strcmp(type, "grid") == 0) <%
  snprintf(ctor, sizeof(ctor), "lv_obj_create");
  snprintf(reg_type, sizeof(reg_type), "lv_obj_t");
 %> else <%
  snprintf(ctor, sizeof(ctor), "lv_%s_create", type);
  snprintf(reg_type, sizeof(reg_type), "lv_%s_t", type);
 %>
 e = find_invoke_entry(ctor);
 if (!e) <%
  LVGL_JSON_LOG_ERR("lvgl_json: unknown widget type '%s'", type);
  return false;
 %>
 if (!e->invoke(parent, &obj, NULL, e->fn) || !obj) <%
  LVGL_JSON_LOG_ERR("lvgl_json: %s failed", ctor);
  return false;
 %>
 populate_entity(node, obj, reg_type, path, strcmp(type, "grid") == 0);
 return true;
%>

bool lvgl_json_render_ui(cJSON *root, lv_obj_t *parent, cJSON *initial_context)
<%
 ui_context_frame_t frame;
 ui_context_frame_t *saved = current_ui_context;
 bool ok = true;

 if (!root) <%
  return false;
 %>
 if (initial_context) <%
  frame.values = initial_context;
  frame.parent = current_ui_context;
  current_ui_context = &frame;
 %>
 if (cJSON_IsArray(root)) <%
  cJSON *node;
  cJSON_ArrayForEach(node, root) <%
   if (!render_json_node_runtime(node, parent, "")) <%
    ok = false;
   %>
  %>
 %> else <%
  ok = render_json_node_runtime(root, parent, "");
 %>
 current_ui_context = saved;
 return ok;
%>"#

end UiCodegen.Interpreter.Source
